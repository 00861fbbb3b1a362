import ModbusCrawler.DecimalNumerals
import ModbusCrawler.ModbusSlave

set_option autoImplicit false

/-!
# The strings that configure a slave

`bps:data_bits:parity:stop_bits` of a serial line and `mean:stdev` of a random
register: which strings are accepted, and what they stand for.
-/
namespace ModbusCrawler.LineConfigs
open CNumerals NumeralGrammar DecimalNumerals ModbusTypes ModbusSlave

def separator : Char := ':'

/-- What repeated `getline` reads: an empty field at the very end is not there. -/
def fields (text : List Char) : List (List Char) :=
  if (text.splitOn separator).getLast? = some [] then (text.splitOn separator).dropLast
  else text.splitOn separator

theorem fields_cons {field : List Char} (hfield : separator ∉ field) (rest : List Char) :
    fields (field ++ separator :: rest) = field :: fields rest := by
  obtain ⟨first, others, hsplit⟩ := List.exists_cons_of_ne_nil (List.splitOn_ne_nil separator rest)
  unfold fields
  rw [List.splitOn_append_cons_self_of_not_mem hfield, hsplit, List.getLast?_cons_cons,
    List.dropLast_cons_cons]
  split_ifs <;> rfl

theorem getlineParts_eq {elem : List Char} (helem : separator ∉ elem) (text : List Char) :
    getlineParts elem text = fields (elem ++ text) := by
  induction text generalizing elem with
  | nil =>
    rw [List.append_nil, fields, List.splitOn_eq_singleton helem]
    cases elem with
    | nil => rfl
    | cons c rest => rfl
  | cons c rest ih =>
    by_cases hc : c = ':'
    · subst hc
      rw [show elem ++ ':' :: rest = elem ++ separator :: rest from rfl, fields_cons helem, getlineParts,
        ih List.not_mem_nil, List.nil_append]
    · have other : separator ∉ elem ++ [c] := by
        intro hmem
        rcases List.mem_append.mp hmem with hmem | hmem
        · exact helem hmem
        · exact hc (List.mem_singleton.mp hmem).symm
      rw [List.append_cons, ← ih other]
      cases elem <;> simp [getlineParts]

/-- The parts with separators in between, and perhaps one more at the end. -/
def Joined (text : List Char) (parts : List (List Char)) : Prop :=
  (∀ part ∈ parts, separator ∉ part) ∧
    (text = [separator].intercalate parts ∧ parts.getLast? ≠ some [] ∨
      text = [separator].intercalate (parts ++ [[]]))

theorem not_mem_splitOn {text part : List Char} (h : part ∈ text.splitOn separator) :
    separator ∉ part := by
  induction text generalizing part with
  | nil =>
    rw [List.splitOn_nil, List.mem_singleton] at h
    rw [h]
    exact List.not_mem_nil
  | cons c rest ih =>
    obtain ⟨first, others, hsplit⟩ := List.exists_cons_of_ne_nil (List.splitOn_ne_nil separator rest)
    rw [List.splitOn_cons_eq_if_modifyHead] at h
    rw [hsplit] at h ih
    split_ifs at h with hc
    · rcases List.mem_cons.mp h with rfl | hmem
      · exact List.not_mem_nil
      · exact ih hmem
    · rw [List.modifyHead_cons] at h
      rcases List.mem_cons.mp h with rfl | hmem
      · intro hsep
        rcases List.mem_cons.mp hsep with rfl | hmem
        · simp at hc
        · exact ih (List.mem_cons_self ..) hmem
      · exact ih (List.mem_cons_of_mem _ hmem)

theorem fields_iff {text : List Char} {parts : List (List Char)} :
    fields text = parts ↔ Joined text parts := by
  have whole : [separator].intercalate (text.splitOn separator) = text :=
    List.intercalate_splitOn separator
  unfold fields
  constructor
  · rintro rfl
    split_ifs with hlast
    · refine ⟨fun part hpart => not_mem_splitOn (List.dropLast_subset _ hpart), .inr ?_⟩
      rw [List.dropLast_append_getLast? _ hlast, whole]
    · exact ⟨fun part hpart => not_mem_splitOn hpart, .inl ⟨whole.symm, hlast⟩⟩
  · rintro ⟨hparts, ⟨rfl, hlast⟩ | rfl⟩
    · rcases List.eq_nil_or_concat parts with rfl | ⟨_, _, hconcat⟩
      · rfl
      · have split := List.splitOn_intercalate separator hparts (by simp [hconcat])
        rw [split, if_neg hlast]
    · have closed : ∀ part ∈ parts ++ [[]], separator ∉ part := by
        intro part hpart
        rcases List.mem_append.mp hpart with hmem | hmem
        · exact hparts part hmem
        · rw [List.mem_singleton.mp hmem]
          exact List.not_mem_nil
      rw [List.splitOn_intercalate separator closed (by simp), List.getLast?_concat, if_pos rfl,
        List.dropLast_concat]

theorem getlineParts_iff {text : List Char} {parts : List (List Char)} :
    getlineParts [] text = parts ↔ Joined text parts := by
  rw [getlineParts_eq List.not_mem_nil, List.nil_append, fields_iff]

/-- A field that `std::stoi` takes for `n`. -/
def IntField (field : List Char) (n : ℤ) : Prop :=
  ∃ negative m, Numeral field negative m ∧ n = signedValue (negative, m) ∧ -2^31 ≤ n ∧ n ≤ 2^31 - 1

theorem stoiPart_iff {part : List Char} {n : ℤ} : RTUSlave.stoiPart part = .ok n ↔ IntField part n := by
  have read := stoi_iff (s := String.ofList part) (n := n)
  rw [String.toList_ofList] at read
  rw [IntField, ← read]
  unfold RTUSlave.stoiPart
  cases stoi (String.ofList part) with
  | ok value => simp
  | error e => cases e <;> simp

/-- Four fields. Of the parity only the first byte counts, and an empty one is NUL. -/
def LineConfig (text : List Char) (line : SerialLine) : Prop :=
  ∃ bps dataBits parity stopBits, Joined text [bps, dataBits, parity, stopBits] ∧
    IntField bps line.bps ∧ IntField dataBits line.dataBits ∧
    line.parity = RTUSlave.firstByte parity ∧ IntField stopBits line.stopBits

theorem serialLine_iff {device lineConfig : String} {line : SerialLine} :
    RTUSlave.serialLine device lineConfig = .ok line ↔
      line.device = device ∧ LineConfig lineConfig.toList line := by
  unfold RTUSlave.serialLine LineConfig
  simp only [← getlineParts_iff]
  constructor
  · intro h
    split at h
    · rename_i bps dataBits parity stopBits hparts
      simp only [bind_eq_ok, stoiPart_iff] at h
      obtain ⟨bpsValue, hbps, dataValue, hdata, stopValue, hstop, hline⟩ := h
      cases hline
      exact ⟨rfl, bps, dataBits, parity, stopBits, hparts, hbps, hdata, rfl, hstop⟩
    · cases h
  · obtain ⟨device', bps, dataBits, parity, stopBits⟩ := line
    rintro ⟨rfl, bpsPart, dataPart, parityPart, stopPart, hparts, hbps, hdata, rfl, hstop⟩
    rw [hparts]
    simp only [bind_eq_ok, stoiPart_iff]
    exact ⟨bps, hbps, dataBits, hdata, stopBits, hstop, rfl⟩

def render (line : SerialLine) (parity : Char) : String :=
  toString line.bps ++ ":" ++ toString line.dataBits ++ ":" ++ String.singleton parity ++ ":" ++
    toString line.stopBits

theorem separator_not_mem (n : ℤ) : separator ∉ (toString n).toList := by
  obtain ⟨negative, sign, hsign, htext, _⟩ := toString_digits n
  rw [htext]
  intro hmem
  rcases List.mem_append.mp hmem with hsep | hsep
  · cases hsign with
    | absent => cases hsep
    | plus | minus => exact absurd hsep (by decide)
  · have digit := Nat.isDigit_of_mem_toDigits (by decide) (by decide) hsep
    exact absurd digit (by decide)

theorem toString_ne_nil (n : ℤ) : (toString n).toList ≠ [] := by
  obtain ⟨_, sign, _, htext, _⟩ := toString_digits n
  rw [htext]
  exact List.append_ne_nil_of_right_ne_nil sign Nat.toDigits_ne_nil

theorem intField_toString {n : ℤ} (hlow : -2^31 ≤ n) (hhigh : n ≤ 2^31 - 1) :
    IntField (toString n).toList n := stoi_iff.mp (stoi_toString hlow hhigh)

/-- What is written for a line is read as that line, whatever character its parity byte
    comes from. -/
theorem serialLine_render (line : SerialLine) {parity : Char} (hparity : parity ≠ ':')
    (hbyte : RTUSlave.firstByte [parity] = line.parity)
    (hbps : -2^31 ≤ line.bps ∧ line.bps ≤ 2^31 - 1)
    (hdata : -2^31 ≤ line.dataBits ∧ line.dataBits ≤ 2^31 - 1)
    (hstop : -2^31 ≤ line.stopBits ∧ line.stopBits ≤ 2^31 - 1) :
    RTUSlave.serialLine line.device (render line parity) = .ok line := by
  refine serialLine_iff.mpr ⟨rfl, _, _, [parity], _, ?_, intField_toString hbps.1 hbps.2,
    intField_toString hdata.1 hdata.2, hbyte.symm, intField_toString hstop.1 hstop.2⟩
  constructor
  · intro part hpart
    simp only [List.mem_cons, List.not_mem_nil, or_false] at hpart
    rcases hpart with rfl | rfl | rfl | rfl
    · exact separator_not_mem _
    · exact separator_not_mem _
    · intro h
      exact hparity (List.mem_singleton.mp h).symm
    · exact separator_not_mem _
  · refine .inl ⟨by simp [render, separator, List.intercalate], ?_⟩
    intro hlast
    exact toString_ne_nil line.stopBits (Option.some.inj hlast)

/-- An ASCII letter is its own byte; of any other character the first byte is kept. -/
theorem serialLine_render_seven :
    RTUSlave.serialLine "/dev/ttyS0" "19200:7:E:2" = .ok ⟨"/dev/ttyS0", 19200, 7, 69, 2⟩ ∧
    RTUSlave.serialLine "/dev/ttyS0" "19200:7:é:2" = .ok ⟨"/dev/ttyS0", 19200, 7, 0xC3, 2⟩ := by
  have text : render ⟨"/dev/ttyS0", 19200, 7, 69, 2⟩ 'E' = "19200:7:E:2" := by decide
  have accented : render ⟨"/dev/ttyS0", 19200, 7, 0xC3, 2⟩ 'é' = "19200:7:é:2" := by decide
  rw [← text, ← accented]
  exact ⟨serialLine_render ⟨"/dev/ttyS0", 19200, 7, 69, 2⟩ (by decide) (by decide) (by decide)
    (by decide) (by decide), serialLine_render ⟨"/dev/ttyS0", 19200, 7, 0xC3, 2⟩ (by decide)
    (by decide) (by decide) (by decide) (by decide)⟩

/-- Two fields for `std::stod`. -/
def RandomConfig {D : Type} (stod : String → Except Exception D) (text : List Char)
    (params : D × D) : Prop :=
  ∃ mean stdev, Joined text [mean, stdev] ∧ stod (String.ofList mean) = .ok params.1 ∧
    stod (String.ofList stdev) = .ok params.2

theorem randomParams_iff {D : Type} [Doubles D] {stod : String → Except Exception D}
    {randomConfig : String} {params : D × D} :
    RandomSlave.randomParams stod randomConfig = .ok params ↔
      RandomConfig stod randomConfig.toList params := by
  unfold RandomSlave.randomParams RandomConfig
  simp only [← getlineParts_iff]
  constructor
  · intro h
    split at h
    · rename_i mean stdev hparts
      simp only [bind_eq_ok] at h
      obtain ⟨meanValue, hmean, stdevValue, hstdev, hparams⟩ := h
      cases hparams
      exact ⟨mean, stdev, hparts, hmean, hstdev⟩
    · cases h
  · obtain ⟨meanValue, stdevValue⟩ := params
    rintro ⟨mean, stdev, hparts, hmean, hstdev⟩
    rw [hparts]
    simp only [bind_eq_ok]
    exact ⟨meanValue, hmean, stdevValue, hstdev, rfl⟩

end ModbusCrawler.LineConfigs
