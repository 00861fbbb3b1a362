import ModbusCrawler.SingleRead

set_option autoImplicit false

/-!
# A raw dump against the single reads of its registers

The dump labels its lines with `address + r * sizeof(uint16_t)`, while line `r`
carries the register `address + r`.
-/
namespace ModbusCrawler.RawDump
open CNumerals NumeralGrammar FailStop ModbusTypes ModbusSlave ModbusOps SingleRead

/-- `nb` registers that are served and that one request may ask for. -/
structure Readable (contents : ℤ → Option UInt16) (address : ℤ) (nb : ℕ) : Prop where
  positive : 0 < nb
  atOnce : nb ≤ modbusMaxReadRegisters
  low : 0 ≤ address
  high : address + nb ≤ 2^16
  served : ∀ i < nb, (contents (address + i)).isSome

def wordAt (contents : ℤ → Option UInt16) (address : ℤ) : UInt16 := (contents address).getD 0

/-- A device whose holding registers keep `contents`. -/
def Holds (rtuSlave : Device) (contents : ℤ → Option UInt16) : Prop :=
  ∀ log address nb, Readable contents address nb →
    (rtuSlave log (.readRegisters address nb)).apiRv.toInt = nb ∧
    ∀ i < nb, reg (rtuSlave log (.readRegisters address nb)).regs i = wordAt contents (address + i)

/-- Whatever was exchanged before, the read ends with `reading`. -/
def Reports (bus : Bus) (rp : RtuParameters) (address : ℤ) (regspec : String)
    (reading : Reading) : Prop :=
  ∃ script, singleRead bus rp address regspec = some script ∧
    ∀ log, ∃ log', script.run log = .ok reading log'

/-- The lines of a dump name the registers that were read, and a single read of the
    register that a line names finds the word of that line. -/
structure Agrees (bus : Bus) (rp : RtuParameters) (address : ℤ) (count : ℕ)
    (lines : List (ℤ × UInt16)) : Prop where
  labels : lines.map Prod.fst = (List.range count).map (fun i : ℕ => address + i)
  words : ∀ line ∈ lines, ∀ regspec ∈ ["1l", "1b"], ∃ val,
    Reports bus rp line.1 regspec (.single line.1 val) ∧ val.toInt % 2^16 = line.2.toNat

/-- What the labelling loop prints. -/
def dumpLines (contents : ℤ → Option UInt16) (address : ℤ) (count : ℕ) : List (ℤ × UInt16) :=
  (List.range count).map (fun r : ℕ => (address + 2 * r, wordAt contents (address + r)))

theorem word_congruent (w : UInt16) : w.toInt16.toInt64.toInt % 2^16 = w.toNat := by
  have signed : w.toInt16.toInt64.toInt = (w.toNat : ℤ).bmod (2^16) := by
    rw [Int16.toInt_toInt64]
    exact BitVec.toInt_eq_toNat_bmod w.toBitVec
  have small : (w.toNat : ℤ) < 2^16 := by exact_mod_cast w.toNat_lt
  rw [signed, Int.bmod_def]
  split_ifs <;> omega

section Served
variable {contents : ℤ → Option UInt16} {rtuSlave : Device} {address : ℤ} {count : ℕ}

theorem rawLines_dump {regs : List UInt16} (hrange : Readable contents address count)
    (hregs : ∀ i < count, reg regs i = wordAt contents (address + i)) :
    rawLines address ((List.range count).map (reg regs)) = dumpLines contents address count := by
  have atOnce : count ≤ 125 := hrange.atOnce
  have low := hrange.low
  have high := hrange.high
  unfold rawLines dumpLines
  apply List.ext_getElem
  · simp
  · intro r hr _
    have hcount : r < count := by simpa using hr
    have label : (address + (r : ℤ) * 2) % 2^64 = address + 2 * r := by omega
    simp only [List.getElem_mapIdx, List.getElem_map, List.getElem_range]
    rw [label, hregs r hcount]

theorem rawRead_run (hholds : Holds rtuSlave contents) (hrange : Readable contents address count)
    (log : Log Request Reply) : (rawRead rtuSlave address count).run log =
      .ok (.raw (dumpLines contents address count)) (log ++
        [(.readRegisters address count, rtuSlave log (.readRegisters address count))]) := by
  obtain ⟨hrv, hregs⟩ := hholds log address count hrange
  have positive : ¬ (count : ℤ) < 0 := by omega
  unfold rawRead RTUSlave.readHoldingRegistersVector
  simp only [if_neg positive, EStateM.run_bind, ask_run, hrv, ne_eq, not_true_eq_false, if_false,
    Int.toNat_natCast]
  rw [← rawLines_dump hrange hregs]
  rfl

theorem wordRead_run (hholds : Holds rtuSlave contents) (hrange : Readable contents address 1)
    (endianess : WordEndianess) (log : Log Request Reply) :
    (typedRead rtuSlave address 1 endianess).run log =
      .ok (.single address (wordAt contents address).toInt16.toInt64)
        (log ++ [(.readRegisters address 1, rtuSlave log (.readRegisters address 1))]) := by
  have answers := hholds log address 1 hrange
  rw [Nat.cast_one] at answers
  have word := answers.2 0 Nat.one_pos
  have value (regs : List UInt16) : toVal endianess regs 1 = some (reg regs 0).toInt16.toInt64 := by
    cases endianess <;> rfl
  rw [Nat.cast_zero, add_zero] at word
  rw [← word]
  unfold typedRead RTUSlave.readHoldingRegisters
  rw [EStateM.run_bind, readTyped_run _ _ _ _ _ _ _ rfl]
  dsimp only
  rw [if_pos answers.1, value]
  rfl

end Served

section Line
variable {bus : Bus} {rp : RtuParameters} {rtuSlave : Device} {contents : ℤ → Option UInt16}

theorem opened_run {read : Device → Line Reading} (hopen : openSlave bus rp = .ok rtuSlave) :
    opened bus rp read = read rtuSlave := by
  unfold opened
  rw [hopen]
  rfl

theorem Reports.unique {address : ℤ} {regspec : String} {first second : Reading}
    (hfirst : Reports bus rp address regspec first) (hsecond : Reports bus rp address regspec second) :
    first = second := by
  obtain ⟨script, hscript, hrun⟩ := hfirst
  obtain ⟨script', hscript', hrun'⟩ := hsecond
  obtain rfl := Option.some.inj (hscript.symm.trans hscript')
  obtain ⟨log, hlog⟩ := hrun []
  obtain ⟨log', hlog'⟩ := hrun' []
  rw [hlog] at hlog'
  injection hlog'

theorem dump_reports (hopen : openSlave bus rp = .ok rtuSlave) (hholds : Holds rtuSlave contents)
    {address : ℤ} {count : ℕ} {regspec : String} (hspec : Denotes regspec.toList (.raw count))
    (hrange : Readable contents address count) :
    Reports bus rp address regspec (.raw (dumpLines contents address count)) := by
  rcases hspec.shape with ⟨_, _, _, _, _, hraw, _⟩ | ⟨lit, _, hs, hraw, hlit, _⟩
  · cases hraw
  · cases hraw
    obtain ⟨c, tail, rfl, _⟩ := hlit.head
    have atOnce : count ≤ 125 := hrange.atOnce
    refine ⟨_, singleRead_raw hs, ?_⟩
    intro log
    rw [opened_run hopen, strtolInt_numeral hs hlit (by omega)]
    exact ⟨_, rawRead_run hholds hrange log⟩

theorem word_reports (hopen : openSlave bus rp = .ok rtuSlave) (hholds : Holds rtuSlave contents)
    {address : ℤ} {regspec : String} (hspec : regspec ∈ ["1l", "1b"])
    (hrange : Readable contents address 1) :
    Reports bus rp address regspec (.single address (wordAt contents address).toInt16.toInt64) := by
  have shape : ∃ last, regspec.toList = '1' :: ([] ++ [last]) ∧ last ∈ ['l', 'b'] := by
    simp only [List.mem_cons, List.not_mem_nil, or_false] at hspec
    rcases hspec with rfl | rfl
    · exact ⟨'l', rfl, by decide⟩
    · exact ⟨'b', rfl, by decide⟩
  obtain ⟨last, hs, hlast⟩ := shape
  refine ⟨_, singleRead_typed hs (by decide) hlast, ?_⟩
  intro log
  rw [opened_run hopen]
  exact ⟨_, wordRead_run hholds hrange _ log⟩

/-- The labels drift from the registers by one more with every line, so only a dump of one
    register is labelled right. -/
theorem dumpLines_labels_iff (contents : ℤ → Option UInt16) (address : ℤ) {count : ℕ}
    (hpos : 0 < count) : (dumpLines contents address count).map Prod.fst =
      (List.range count).map (fun i : ℕ => address + i) ↔ count = 1 := by
  constructor
  · intro h
    by_contra hne
    have second : 1 < count := by omega
    have label := congrArg (fun labels => labels[1]?) h
    simp only [dumpLines, List.getElem?_map, List.getElem?_range second, Option.map_some,
      Option.some.injEq, Nat.cast_one] at label
    omega
  · rintro rfl
    simp [dumpLines]

theorem rawDump_agrees_iff (hopen : openSlave bus rp = .ok rtuSlave)
    (hholds : Holds rtuSlave contents) {address : ℤ} {count : ℕ} {regspec : String}
    (hspec : Denotes regspec.toList (.raw count)) (hrange : Readable contents address count) :
    (∃ lines, Reports bus rp address regspec (.raw lines) ∧ Agrees bus rp address count lines) ↔
      count = 1 := by
  have dump := dump_reports hopen hholds hspec hrange
  constructor
  · rintro ⟨lines, hlines, hagrees⟩
    obtain rfl : lines = dumpLines contents address count := by
      injection hlines.unique dump
    exact (dumpLines_labels_iff contents address hrange.positive).mp hagrees.labels
  · rintro rfl
    refine ⟨_, dump, (dumpLines_labels_iff contents address Nat.one_pos).mpr rfl, ?_⟩
    intro line hline regspec hregspec
    have only : line = (address, wordAt contents address) := by
      simpa [dumpLines] using hline
    subst only
    exact ⟨_, word_reports hopen hholds hregspec hrange, word_congruent _⟩

end Line

/-- A device that serves `contents` and refuses everything else. -/
def contentsDevice (contents : ℤ → Option UInt16) : Device := fun _ request =>
  match request with
  | .readRegisters address nb =>
    if 0 < nb ∧ nb ≤ modbusMaxReadRegisters ∧ 0 ≤ address ∧ address + nb ≤ 2^16 ∧
        ∀ i < nb.toNat, (contents (address + i)).isSome then
      { apiRv := Int32.ofInt nb
        regs := (List.range nb.toNat).map (fun i : ℕ => wordAt contents (address + i)) }
    else { apiRv := -1, strerror := "Illegal data address" }
  | _ => { apiRv := -1, strerror := "Illegal function" }

theorem contentsDevice_holds (contents : ℤ → Option UInt16) :
    Holds (contentsDevice contents) contents := by
  intro log address nb hrange
  have atOnce : nb ≤ 125 := hrange.atOnce
  have accepted : (0 : ℤ) < nb ∧ (nb : ℤ) ≤ modbusMaxReadRegisters ∧ 0 ≤ address ∧
      address + nb ≤ 2^16 ∧ ∀ i < (nb : ℤ).toNat, (contents (address + i)).isSome :=
    ⟨by exact_mod_cast hrange.positive, by exact_mod_cast hrange.atOnce, hrange.low, hrange.high,
      hrange.served⟩
  have answer : contentsDevice contents log (.readRegisters address nb) =
      { apiRv := Int32.ofInt nb
        regs := (List.range nb).map (fun i : ℕ => wordAt contents (address + i)) } := if_pos accepted
  rw [answer]
  refine ⟨Int32.toInt_ofInt_of_le (by omega) (by omega), ?_⟩
  intro i hi
  simp [reg, hi]

def contentsBus (contents : ℤ → Option UInt16) : Bus where
  newRtu _ := true
  connectFailure _ _ := none
  device _ _ _ := contentsDevice contents

/-- A hundred registers, each with its own address in it. -/
def ownAddress (address : ℤ) : Option UInt16 :=
  if 0 ≤ address ∧ address < 100 then some (UInt16.ofNat address.toNat) else none

theorem ownAddress_readable {address : ℤ} {nb : ℕ} (hpos : 0 < nb) (hlow : 0 ≤ address)
    (hhigh : address + nb ≤ 100) : Readable ownAddress address nb where
  positive := hpos
  atOnce := by
    change nb ≤ 125
    omega
  low := hlow
  high := by omega
  served i hi := by
    have inside : 0 ≤ address + (i : ℤ) ∧ address + (i : ℤ) < 100 := by omega
    rw [ownAddress, if_pos inside]
    rfl

theorem rawDump_agrees_one : ∃ lines,
    Reports (contentsBus ownAddress) FlashRuns.plainRtu 10 "1r" (.raw lines) ∧
      Agrees (contentsBus ownAddress) FlashRuns.plainRtu 10 1 lines := by
  have lit : Literal ['1'] 1 := digit_literal rfl (by decide)
  have spec : Denotes "1r".toList (.raw 1) := Denotes.raw lit Nat.one_pos
  exact (rawDump_agrees_iff rfl (contentsDevice_holds ownAddress) spec
    (ownAddress_readable (by decide) (by decide) (by decide))).mpr rfl

/-- Two registers from 10 on: the word of register 11 is printed as that of register 12. -/
theorem rawDump_drifts :
    Reports (contentsBus ownAddress) FlashRuns.plainRtu 10 "2r" (.raw [(10, 10), (12, 11)]) ∧
    Reports (contentsBus ownAddress) FlashRuns.plainRtu 12 "1l" (.single 12 12) ∧
    ¬ ∃ lines, Reports (contentsBus ownAddress) FlashRuns.plainRtu 10 "2r" (.raw lines) ∧
      Agrees (contentsBus ownAddress) FlashRuns.plainRtu 10 2 lines := by
  have hopen : openSlave (contentsBus ownAddress) FlashRuns.plainRtu =
    .ok (contentsDevice ownAddress) := rfl
  have holds := contentsDevice_holds ownAddress
  have lit : Literal ['2'] 2 := digit_literal rfl (by decide)
  have spec : Denotes "2r".toList (.raw 2) := Denotes.raw lit (by decide)
  have dump : Reports (contentsBus ownAddress) FlashRuns.plainRtu 10 "2r"
    (.raw [(10, 10), (12, 11)]) :=
      dump_reports hopen holds spec (ownAddress_readable (by decide) (by decide) (by decide))
  refine ⟨dump, ?_, ?_⟩
  · exact word_reports hopen holds (by decide)
      (ownAddress_readable (by decide) (by decide) (by decide))
  · rintro ⟨lines, hlines, hagrees⟩
    obtain rfl : lines = [(10, 10), (12, 11)] := by
      injection hlines.unique dump
    exact absurd hagrees.labels (by decide)

end ModbusCrawler.RawDump
