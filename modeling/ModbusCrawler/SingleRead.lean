import ModbusCrawler.FlashRuns
import ModbusCrawler.NumeralGrammar

set_option autoImplicit false

/-!
# The register specifications of `single_read`

The grammar that the usage text gives, what the code makes of a string by its
first, second and last character, and where the two disagree.
-/
namespace ModbusCrawler.SingleRead
open CNumerals NumeralGrammar FailStop ModbusTypes ModbusSlave ModbusOps

inductive RegSpec where
  | typed (regsize : ℤ) (endianess : WordEndianess)
  | raw (count : ℕ)
  deriving DecidableEq

/-- `{1|2|4}{l|b} | Nr`. -/
inductive Denotes : List Char → RegSpec → Prop where
  | typed {c e : Char} {regsize : ℤ} {endianess : WordEndianess} :
      (c, regsize) ∈ [('1', 1), ('2', 2), ('4', 4)] →
      (e, endianess) ∈ [('l', WordEndianess.little), ('b', .big)] →
      Denotes [c, e] (.typed regsize endianess)
  | raw {lit : List Char} {count : ℕ} : Literal lit count → 0 < count →
      Denotes (lit ++ ['r']) (.raw count)

def typedRead (rtuSlave : Device) (address regsize : ℤ) (endianess : WordEndianess) :
    Line Reading := do
  let val ← RTUSlave.readHoldingRegisters rtuSlave address regsize endianess
  pure (.single address val)

def rawRead (rtuSlave : Device) (address numRegs : ℤ) : Line Reading := do
  let registers ← RTUSlave.readHoldingRegistersVector rtuSlave address numRegs
  pure (.raw (rawLines address registers))

/-- The read that a specification stands for. -/
def RegSpec.read (rtuSlave : Device) (address : ℤ) : RegSpec → Line Reading
  | .typed regsize endianess => typedRead rtuSlave address regsize endianess
  | .raw count => rawRead rtuSlave address count

def opened (bus : Bus) (rp : RtuParameters) (read : Device → Line Reading) : Line Reading := do
  let rtuSlave ← throwing (openSlave bus rp)
  read rtuSlave

/-- `regspec` is treated as the grammar says: read as it denotes, or refused before the line
    is opened. -/
structure AcceptsExactly (regspec : String) : Prop where
  reads : ∀ spec, Denotes regspec.toList spec → ∀ bus rp address,
    singleRead bus rp address regspec = some (opened bus rp (fun rtuSlave => spec.read rtuSlave address))
  refuses : (∀ spec, ¬ Denotes regspec.toList spec) → ∀ bus rp address log, ∃ script what,
    singleRead bus rp address regspec = some script ∧
      script.run log = .error (.invalidArgument what) log

/-- `regspec[0] - '0'`. -/
def regsizeOf (first : Char) : ℤ := first.toNat - '0'.toNat

theorem regsizeOf_supported (first : Char) : first ∈ ['1', '2', '4'] ↔
    regsizeOf first = 1 ∨ regsizeOf first = 2 ∨ regsizeOf first = 4 := by
  have digit (c : Char) (n : ℤ) (hn : n = c.toNat - '0'.toNat) : regsizeOf first = n ↔ first = c := by
    rw [regsizeOf, hn, ← Char.toNat_inj]
    omega
  rw [digit '1' 1 rfl, digit '2' 2 rfl, digit '4' 4 rfl]
  simp

section Shapes
variable {regspec : String} {first last : Char} {middle : List Char} {bus : Bus}
  {rp : RtuParameters} {address : ℤ}

theorem singleRead_one (h : regspec.toList = [first]) :
    singleRead bus rp address regspec =
      some (throw (.invalidArgument ("invalid regsize specification: " ++ regspec))) := by
  unfold singleRead
  rw [h]
  rfl

theorem singleRead_long (h : regspec.toList = first :: (middle ++ [last])) :
    singleRead bus rp address regspec = some (
      if last ≠ 'l' ∧ last ≠ 'b' ∧ last ≠ 'r' then
        throw (.invalidArgument ("invalid regsize specification: " ++ regspec))
      else if last ≠ 'r' ∧ regsizeOf first ≠ 1 ∧ regsizeOf first ≠ 2 ∧ regsizeOf first ≠ 4 then
        throw (.invalidArgument "regsize must be 1, 2 or 4")
      else if last = 'r' then
        opened bus rp (fun rtuSlave => rawRead rtuSlave address (strtolInt regspec))
      else opened bus rp (fun rtuSlave => typedRead rtuSlave address (regsizeOf first)
        (if (middle ++ [last]).head? = some 'l' then .little else .big))) := by
  have back : (first :: (middle ++ [last])).getLastD first = last := by
    rw [← List.cons_append]
    exact List.getLastD_concat
  have long : ¬ middle ++ [last] = [] := by simp
  unfold singleRead
  rw [h]
  dsimp only
  rw [back]
  simp only [long, false_or]
  congr 1
  by_cases hlast : last ≠ 'l' ∧ last ≠ 'b' ∧ last ≠ 'r'
  · rw [if_pos hlast, if_pos hlast]
    rfl
  · rw [if_neg hlast, if_neg hlast]
    by_cases hsize : last ≠ 'r' ∧ regsizeOf first ≠ 1 ∧ regsizeOf first ≠ 2 ∧ regsizeOf first ≠ 4
    · rw [if_pos hsize]
      exact if_pos hsize
    · rw [if_neg hsize]
      refine (if_neg hsize).trans ?_
      by_cases hr : last = 'r'
      · simp only [if_pos hr]
        rfl
      · simp only [if_neg hr]
        rfl

theorem singleRead_raw (h : regspec.toList = first :: (middle ++ ['r'])) :
    singleRead bus rp address regspec =
      some (opened bus rp (fun rtuSlave => rawRead rtuSlave address (strtolInt regspec))) := by
  rw [singleRead_long h, if_neg (by simp), if_neg (by simp), if_pos rfl]

theorem singleRead_typed (h : regspec.toList = first :: (middle ++ [last]))
    (hfirst : first ∈ ['1', '2', '4']) (hlast : last ∈ ['l', 'b']) :
    singleRead bus rp address regspec =
      some (opened bus rp (fun rtuSlave => typedRead rtuSlave address (regsizeOf first)
        (if (middle ++ [last]).head? = some 'l' then .little else .big))) := by
  have size := (regsizeOf_supported first).mp hfirst
  have letter : last = 'l' ∨ last = 'b' := by simpa using hlast
  rw [singleRead_long h, if_neg, if_neg, if_neg]
  · rcases letter with rfl | rfl <;> decide
  · rintro ⟨_, h1, h2, h4⟩
    rcases size with hs | hs | hs
    · exact h1 hs
    · exact h2 hs
    · exact h4 hs
  · rintro ⟨hl, hb, _⟩
    exact letter.elim hl hb

theorem singleRead_refused (h : regspec.toList = first :: (middle ++ [last])) (hr : last ≠ 'r')
    (hspec : ¬ (first ∈ ['1', '2', '4'] ∧ last ∈ ['l', 'b'])) :
    ∃ what, singleRead bus rp address regspec = some (throw (.invalidArgument what)) := by
  rw [singleRead_long h]
  by_cases hlast : last ≠ 'l' ∧ last ≠ 'b' ∧ last ≠ 'r'
  · exact ⟨_, congrArg some (if_pos hlast)⟩
  · have letter : last ∈ ['l', 'b'] := by
      by_contra hnot
      simp only [List.mem_cons, List.not_mem_nil, or_false, not_or] at hnot
      exact hlast ⟨hnot.1, hnot.2, hr⟩
    have size : last ≠ 'r' ∧ regsizeOf first ≠ 1 ∧ regsizeOf first ≠ 2 ∧ regsizeOf first ≠ 4 := by
      have unsupported := mt (regsizeOf_supported first).mpr (fun hfirst => hspec ⟨hfirst, letter⟩)
      simp only [not_or] at unsupported
      exact ⟨hr, unsupported⟩
    exact ⟨_, congrArg some ((if_neg hlast).trans (if_pos size))⟩

end Shapes

section Grammar
variable {s : List Char} {spec : RegSpec}

theorem Denotes.shape (h : Denotes s spec) :
    (∃ c e regsize endianess, s = [c, e] ∧ spec = .typed regsize endianess ∧
      (c, regsize) ∈ [('1', (1 : ℤ)), ('2', 2), ('4', 4)] ∧
      (e, endianess) ∈ [('l', WordEndianess.little), ('b', .big)]) ∨
    (∃ lit count, s = lit ++ ['r'] ∧ spec = .raw count ∧ Literal lit count ∧ 0 < count) := by
  cases h with
  | @typed c e regsize endianess hc he => exact .inl ⟨c, e, regsize, endianess, rfl, rfl, hc, he⟩
  | @raw lit count hlit hpos => exact .inr ⟨lit, count, rfl, rfl, hlit, hpos⟩

theorem Denotes.raw_inv {front : List Char} (h : Denotes (front ++ ['r']) spec) :
    ∃ count, spec = .raw count ∧ Literal front count ∧ 0 < count := by
  rcases h.shape with ⟨c, e, _, _, hs, _, _, he⟩ | ⟨lit, count, hs, hspec, hlit, hpos⟩
  · have split : front ++ ['r'] = [c] ++ [e] := hs
    cases (List.append_inj' split rfl).2
    simp at he
  · obtain rfl := (List.append_inj' hs rfl).1
    exact ⟨count, hspec, hlit, hpos⟩

theorem Denotes.typed_inv {first last : Char} {middle : List Char} (hr : last ≠ 'r')
    (h : Denotes (first :: (middle ++ [last])) spec) : middle = [] ∧
      ∃ regsize endianess, spec = .typed regsize endianess ∧
        (first, regsize) ∈ [('1', (1 : ℤ)), ('2', 2), ('4', 4)] ∧
        (last, endianess) ∈ [('l', WordEndianess.little), ('b', .big)] := by
  rcases h.shape with ⟨c, e, regsize, endianess, hs, hspec, hc, he⟩ | ⟨lit, _, hs, _⟩
  · obtain ⟨rfl, htail⟩ := List.cons.inj hs
    have split : middle ++ [last] = [] ++ [e] := htail
    obtain ⟨rfl, hlast⟩ := List.append_inj' split rfl
    cases hlast
    exact ⟨rfl, regsize, endianess, hspec, hc, he⟩
  · rw [← List.cons_append] at hs
    exact absurd (List.cons.inj (List.append_inj' hs rfl).2).1 hr

theorem not_denotes_short (h : s.length < 2) : ¬ Denotes s spec := by
  intro hdenotes
  rcases hdenotes.shape with ⟨_, _, _, _, rfl, _⟩ | ⟨lit, _, rfl, _, hlit, _⟩
  · simp at h
  · obtain ⟨_, _, rfl, _⟩ := hlit.head
    simp only [List.length_append, List.length_cons, List.length_nil] at h
    omega

end Grammar

theorem literal_unique {lit : List Char} {m n : ℕ} (hm : Literal lit m) (hn : Literal lit n) :
    m = n := by
  have read {k : ℕ} (h : Literal lit k) : scan 0 lit = some (false, k) :=
    scan_leadingNumeral ⟨[], [], lit, rfl, by simp, .absent, h.leading⟩
  have same := (read hm).symm.trans (read hn)
  exact congrArg Prod.snd (Option.some.inj same)

theorem strtolInt_numeral {regspec : String} {lit : List Char} {count : ℕ}
    (h : regspec.toList = lit ++ ['r']) (hlit : Literal lit count) (hcount : count < 2^31) :
    strtolInt regspec = count := by
  have numeral : LeadingNumeral regspec.toList false count :=
    ⟨[], [], _, by rw [h]; rfl, by simp, .absent, hlit.leading_before (by decide) (by decide)⟩
  have high : ¬ signedValue (false, count) > 2^63 - 1 := by
    change ¬ (count : ℤ) > 2^63 - 1
    omega
  have low : ¬ signedValue (false, count) < -2^63 := by
    change ¬ (count : ℤ) < -2^63
    omega
  have value : strtoimax (cString regspec) = ((count : ℤ), false) := by
    unfold strtoimax
    rw [scan_leadingNumeral (leadingNumeral_cString numeral)]
    dsimp only
    rw [if_neg high, if_neg low]
    rfl
  rw [strtolInt, value]
  exact Int32.toInt_ofInt_of_le (by omega) (by omega)

theorem rawRead_log (rtuSlave : Device) (address numRegs : ℤ) (log : Log Request Reply) :
    finalLog (rawRead rtuSlave address numRegs) log = if numRegs < 0 then log else
      log ++ [(.readRegisters address numRegs, rtuSlave log (.readRegisters address numRegs))] := by
  unfold finalLog rawRead RTUSlave.readHoldingRegistersVector
  by_cases hnegative : numRegs < 0
  · simp only [if_pos hnegative]
    rfl
  · simp only [if_neg hnegative, EStateM.run_bind, ask_run]
    split_ifs <;> rfl

theorem typedRead_log (rtuSlave : Device) (address : ℤ) {regsize : ℤ} (endianess : WordEndianess)
    (log : Log Request Reply) (hsize : regsizeSupported regsize = true) :
    finalLog (typedRead rtuSlave address regsize endianess) log =
      log ++ [(.readRegisters address regsize, rtuSlave log (.readRegisters address regsize))] := by
  unfold finalLog typedRead RTUSlave.readHoldingRegisters
  rw [EStateM.run_bind, readTyped_run _ _ _ _ _ _ _ hsize]
  dsimp only
  split_ifs
  · cases toVal endianess (rtuSlave log (.readRegisters address regsize)).regs regsize <;> rfl
  · rfl

/-- Where the code does what the usage text says: the string is not empty, what stands before
    a last `r` is a positive numeral that an `int` holds, and nothing stands between a size
    and the letter of a word order. -/
structure WellBehaved (regspec : String) : Prop where
  nonempty : regspec ≠ ""
  rawCount : ∀ front, front ≠ [] → regspec.toList = front ++ ['r'] →
    ∃ count, Literal front count ∧ 0 < count ∧ count < 2^31
  twoLetters : ∀ first middle last, regspec.toList = first :: (middle ++ [last]) →
    first ∈ ['1', '2', '4'] → last ∈ ['l', 'b'] → middle = []

theorem typed_fields {first last : Char} (hfirst : first ∈ ['1', '2', '4'])
    (hlast : last ∈ ['l', 'b']) :
    (first, regsizeOf first) ∈ [('1', (1 : ℤ)), ('2', 2), ('4', 4)] ∧
      (last, if [last].head? = some 'l' then WordEndianess.little else .big) ∈
        [('l', WordEndianess.little), ('b', .big)] := by
  simp only [List.mem_cons, List.not_mem_nil, or_false] at hfirst hlast
  constructor
  · rcases hfirst with rfl | rfl | rfl <;> decide
  · rcases hlast with rfl | rfl <;> decide

theorem typed_fields_unique {first last : Char} {regsize : ℤ} {endianess : WordEndianess}
    (hfirst : (first, regsize) ∈ [('1', (1 : ℤ)), ('2', 2), ('4', 4)])
    (hlast : (last, endianess) ∈ [('l', WordEndianess.little), ('b', .big)]) :
    first ∈ ['1', '2', '4'] ∧ last ∈ ['l', 'b'] ∧ regsize = regsizeOf first ∧
      endianess = if [last].head? = some 'l' then .little else .big := by
  simp only [List.mem_cons, Prod.mk.injEq, List.not_mem_nil, or_false] at hfirst hlast
  rcases hfirst with ⟨rfl, rfl⟩ | ⟨rfl, rfl⟩ | ⟨rfl, rfl⟩ <;>
    rcases hlast with ⟨rfl, rfl⟩ | ⟨rfl, rfl⟩ <;> decide

theorem WellBehaved.reads {regspec : String} (h : WellBehaved regspec) {spec : RegSpec}
    (hspec : Denotes regspec.toList spec) (bus : Bus) (rp : RtuParameters) (address : ℤ) :
    singleRead bus rp address regspec =
      some (opened bus rp (fun rtuSlave => spec.read rtuSlave address)) := by
  rcases hspec.shape with ⟨c, e, regsize, endianess, hs, rfl, hc, he⟩ | ⟨lit, count, hs, rfl, hlit, hpos⟩
  · obtain ⟨hfirst, hlast, rfl, rfl⟩ := typed_fields_unique hc he
    have split : regspec.toList = c :: ([] ++ [e]) := hs
    rw [singleRead_typed split hfirst hlast]
    rfl
  · obtain ⟨c, tail, rfl, _⟩ := hlit.head
    obtain ⟨count', hlit', _, hsmall⟩ := h.rawCount _ (List.cons_ne_nil c tail) hs
    obtain rfl := literal_unique hlit hlit'
    rw [singleRead_raw hs, strtolInt_numeral hs hlit hsmall]
    rfl

theorem list_shape (l : List Char) : l = [] ∨ (∃ c, l = [c]) ∨
    ∃ first middle last, l = first :: (middle ++ [last]) := by
  cases l with
  | nil => exact .inl rfl
  | cons first rest =>
    rcases List.eq_nil_or_concat rest with rfl | ⟨middle, last, rfl⟩
    · exact .inr (.inl ⟨first, rfl⟩)
    · exact .inr (.inr ⟨first, middle, last, by rw [List.concat_eq_append]⟩)

theorem WellBehaved.refuses {regspec : String} (h : WellBehaved regspec)
    (hno : ∀ spec, ¬ Denotes regspec.toList spec) (bus : Bus) (rp : RtuParameters) (address : ℤ) :
    ∃ what, singleRead bus rp address regspec = some (throw (.invalidArgument what)) := by
  rcases list_shape regspec.toList with hs | ⟨c, hs⟩ | ⟨first, middle, last, hs⟩
  · exact absurd (String.toList_eq_nil_iff.mp hs) h.nonempty
  · exact ⟨_, singleRead_one hs⟩
  · by_cases hr : last = 'r'
    · subst hr
      obtain ⟨count, hlit, hpos, _⟩ := h.rawCount (first :: middle) (List.cons_ne_nil _ _) hs
      exact absurd (hs ▸ Denotes.raw hlit hpos) (hno (.raw count))
    · refine singleRead_refused hs hr ?_
      rintro ⟨hfirst, hlast⟩
      obtain rfl := h.twoLetters first middle last hs hfirst hlast
      obtain ⟨hc, he⟩ := typed_fields hfirst hlast
      exact absurd (hs ▸ Denotes.typed hc he) (hno _)

theorem finalLog_opened (read : Device → Line Reading) (log : Log Request Reply) :
    finalLog (opened FlashRuns.plainBus FlashRuns.plainRtu read) log =
      finalLog (read FileTransfer.plainDevice) log := rfl

theorem AcceptsExactly.run_nil {regspec : String} (h : AcceptsExactly regspec)
    (hno : ∀ spec, ¬ Denotes regspec.toList spec) {read : Device → Line Reading}
    (hread : singleRead FlashRuns.plainBus FlashRuns.plainRtu 0 regspec =
      some (opened FlashRuns.plainBus FlashRuns.plainRtu read)) :
    ∃ what, (read FileTransfer.plainDevice).run [] = .error (.invalidArgument what) [] := by
  obtain ⟨script, what, hscript, hrun⟩ := h.refuses hno FlashRuns.plainBus FlashRuns.plainRtu 0 []
  rw [hread] at hscript
  cases hscript
  exact ⟨what, hrun⟩

theorem rawRead_negative (rtuSlave : Device) (address : ℤ) {numRegs : ℤ} (h : numRegs < 0)
    (log : Log Request Reply) : (rawRead rtuSlave address numRegs).run log =
      .error (.lengthError "cannot create std::vector larger than max_size()") log := by
  unfold rawRead RTUSlave.readHoldingRegistersVector
  simp only [if_pos h]
  rfl

/-- A raw read asks the device, or it dies on the size of its vector. -/
theorem rawRead_not_refused (rtuSlave : Device) (address numRegs : ℤ) (what : String) :
    (rawRead rtuSlave address numRegs).run [] ≠ .error (.invalidArgument what) [] := by
  intro hrun
  by_cases hnegative : numRegs < 0
  · rw [rawRead_negative rtuSlave address hnegative] at hrun
    cases hrun
  · have asked := rawRead_log rtuSlave address numRegs []
    rw [if_neg hnegative, finalLog, hrun] at asked
    cases asked

theorem typedRead_not_refused (rtuSlave : Device) (address : ℤ) {regsize : ℤ}
    (endianess : WordEndianess) (hsize : regsizeSupported regsize = true) (what : String) :
    (typedRead rtuSlave address regsize endianess).run [] ≠ .error (.invalidArgument what) [] := by
  intro hrun
  have asked := typedRead_log rtuSlave address endianess [] hsize
  rw [finalLog, hrun] at asked
  cases asked

theorem AcceptsExactly.rawCount {regspec : String} {first : Char} {middle : List Char}
    (h : AcceptsExactly regspec) (hs : regspec.toList = first :: (middle ++ ['r'])) :
    ∃ count, Literal (first :: middle) count ∧ 0 < count ∧ count < 2^31 := by
  have code : singleRead FlashRuns.plainBus FlashRuns.plainRtu 0 regspec =
    some (opened FlashRuns.plainBus FlashRuns.plainRtu
      (fun rtuSlave => rawRead rtuSlave 0 (strtolInt regspec))) := singleRead_raw hs
  by_cases hdenotes : ∃ spec, Denotes regspec.toList spec
  · obtain ⟨spec, hspec⟩ := hdenotes
    have meant := h.reads spec hspec FlashRuns.plainBus FlashRuns.plainRtu 0
    rw [hs, ← List.cons_append] at hspec
    obtain ⟨count, rfl, hlit, hpos⟩ := hspec.raw_inv
    refine ⟨count, hlit, hpos, ?_⟩
    have same := congrArg (fun script => finalLog script []) (Option.some.inj (code.symm.trans meant))
    simp only [finalLog_opened, RegSpec.read, rawRead_log] at same
    have positive : ¬ (count : ℤ) < 0 := by omega
    rw [if_neg positive] at same
    by_cases hnegative : strtolInt regspec < 0
    · rw [if_pos hnegative] at same
      cases same
    · rw [if_neg hnegative] at same
      have counts : strtolInt regspec = count := by
        simpa using congrArg (fun log => log.map Prod.fst) same
      have bound : strtolInt regspec < 2^31 := Int32.toInt_lt _
      omega
  · obtain ⟨what, hrun⟩ := h.run_nil (not_exists.mp hdenotes) code
    exact absurd hrun (rawRead_not_refused _ _ _ what)

theorem AcceptsExactly.twoLetters {regspec : String} {first last : Char} {middle : List Char}
    (h : AcceptsExactly regspec) (hs : regspec.toList = first :: (middle ++ [last]))
    (hfirst : first ∈ ['1', '2', '4']) (hlast : last ∈ ['l', 'b']) : middle = [] := by
  by_contra hmiddle
  have hr : last ≠ 'r' := by
    rintro rfl
    exact absurd hlast (by decide)
  have hno (spec : RegSpec) : ¬ Denotes regspec.toList spec := by
    intro hspec
    rw [hs] at hspec
    exact hmiddle (hspec.typed_inv hr).1
  have hsize : regsizeSupported (regsizeOf first) = true := by
    simpa [regsizeSupported, or_assoc] using (regsizeOf_supported first).mp hfirst
  obtain ⟨what, hrun⟩ := h.run_nil hno (singleRead_typed hs hfirst hlast)
  exact typedRead_not_refused _ _ _ hsize what hrun

theorem AcceptsExactly.wellBehaved {regspec : String} (h : AcceptsExactly regspec) :
    WellBehaved regspec where
  nonempty := by
    rintro rfl
    have hno (spec : RegSpec) : ¬ Denotes "".toList spec := not_denotes_short (by decide)
    obtain ⟨script, _, hscript, _⟩ := h.refuses hno FlashRuns.plainBus FlashRuns.plainRtu 0 []
    cases hscript
  rawCount front hfront hs := by
    obtain ⟨first, middle, rfl⟩ := List.exists_cons_of_ne_nil hfront
    exact h.rawCount hs
  twoLetters _ _ _ hs hfirst hlast := h.twoLetters hs hfirst hlast

theorem WellBehaved.acceptsExactly {regspec : String} (h : WellBehaved regspec) :
    AcceptsExactly regspec where
  reads _ hspec := h.reads hspec
  refuses hno bus rp address log := by
    obtain ⟨what, hwhat⟩ := h.refuses hno bus rp address
    exact ⟨_, what, hwhat, rfl⟩

theorem singleRead_accepts_iff (regspec : String) : AcceptsExactly regspec ↔ WellBehaved regspec :=
  ⟨AcceptsExactly.wellBehaved, WellBehaved.acceptsExactly⟩

theorem singleRead_accepts_extra_letters :
    (∀ spec, ¬ Denotes "1xl".toList spec) ∧
    (∃ script, singleRead FlashRuns.plainBus FlashRuns.plainRtu 7 "1xl" = some script ∧
      (finalLog script []).map Prod.fst = [.readRegisters 7 1]) ∧
    ¬ AcceptsExactly "1xl" := by
  have hs : "1xl".toList = '1' :: (['x'] ++ ['l']) := rfl
  refine ⟨?_, ⟨_, singleRead_typed hs (by decide) (by decide), by decide⟩, ?_⟩
  · intro spec hspec
    rw [hs] at hspec
    exact absurd (hspec.typed_inv (by decide)).1 (by decide)
  · intro h
    exact absurd (h.twoLetters hs (by decide) (by decide)) (by decide)

end ModbusCrawler.SingleRead
