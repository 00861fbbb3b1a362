import ModbusCrawler.MeasConfig
import ModbusCrawler.NumeralGrammar

set_option autoImplicit false

/-!
# Threshold strings: `suval::assign_from_string`

What one call does, as a function of the numeral that the C library reads and
of `errno`, and what a sequence of calls does that carries `errno` along.
-/
namespace ModbusCrawler.Thresholds
open CNumerals NumeralGrammar ModbusTypes MeasConfig

/-- Sign and magnitude of the numeral that is read; 0 where there is none. -/
def numeral (s : String) : Bool × ℕ := (scan 0 (cString s)).getD (false, 0)

/-- The textual test of the unsigned case, which skips blanks only. -/
def MinusFirst (s : String) : Prop :=
  (s.toList.dropWhile (fun c => c = ' ')).head? = some '-'

/-- The call leaves `ERANGE` in `errno`. -/
def Raises (s : String) (vt : ValueType) : Prop :=
  if valueSigned vt then signedValue (numeral s) < -2^63 ∨ 2^63 - 1 < signedValue (numeral s)
  else MinusFirst s ∨ 2^64 ≤ (numeral s).2

/-- What a call that does not raise compares with the range; a minus sign wraps around
    in the unsigned case. -/
def parsedValue (s : String) (vt : ValueType) : ℤ :=
  if valueSigned vt then signedValue (numeral s) else signedValue (numeral s) % 2^64

def InRange (vt : ValueType) (n : ℤ) : Prop := numericMin vt ≤ n ∧ n ≤ numericMax vt

instance (s : String) : Decidable (MinusFirst s) := inferInstanceAs (Decidable (_ = _))

instance (s : String) (vt : ValueType) : Decidable (Raises s vt) :=
  inferInstanceAs (Decidable (if valueSigned vt = true then
    signedValue (numeral s) < -2^63 ∨ 2^63 - 1 < signedValue (numeral s)
    else MinusFirst s ∨ 2^64 ≤ (numeral s).2))

instance (vt : ValueType) (n : ℤ) : Decidable (InRange vt n) := inferInstanceAs (Decidable (_ ∧ _))

def outOfRange (s : String) (vt : ValueType) : Exception :=
  .rangeError (s ++ " OOR for " ++ vt.toString)

def stored (vt : ValueType) (n : ℤ) : Suval :=
  if valueSigned vt then .signed (Int64.ofInt n) else .unsigned (UInt64.ofInt n)

theorem raises_signed {vt : ValueType} (h : valueSigned vt = true) (s : String) :
    Raises s vt ↔ signedValue (numeral s) < -2^63 ∨ 2^63 - 1 < signedValue (numeral s) := by
  rw [Raises, if_pos h]

theorem raises_unsigned {vt : ValueType} (h : valueSigned vt = false) (s : String) :
    Raises s vt ↔ MinusFirst s ∨ 2^64 ≤ (numeral s).2 := by
  rw [Raises, if_neg (by simp [h])]

theorem parsedValue_signed {vt : ValueType} (h : valueSigned vt = true) (s : String) :
    parsedValue s vt = signedValue (numeral s) := by
  rw [parsedValue, if_pos h]

theorem parsedValue_unsigned {vt : ValueType} (h : valueSigned vt = false) (s : String) :
    parsedValue s vt = signedValue (numeral s) % 2^64 := by
  rw [parsedValue, if_neg (by simp [h])]

theorem storeInRange_erange (s : String) (vt : ValueType) (inRange : Bool) (value : Suval) :
    (Suval.storeInRange s vt inRange value).run .erange = .error (outOfRange s vt) .erange := rfl

theorem storeInRange_run {s : String} {vt : ValueType} {inRange : Bool} {n : ℤ}
    (h : inRange = true ↔ InRange vt n) (value : Suval) (errno : Errno) :
    (Suval.storeInRange s vt inRange value).run errno =
      if errno = .erange ∨ ¬ InRange vt n then .error (outOfRange s vt) errno
      else .ok value errno := by
  change (if (decide (errno = .erange) || !inRange) = true then _ else _ : Parse Suval).run errno = _
  by_cases hn : errno = .erange ∨ ¬ InRange vt n
  · rw [if_pos hn, if_pos (by simpa [← h] using hn)]
    rfl
  · rw [if_neg hn, if_neg (by simpa [← h] using hn)]
    rfl

theorem strtoimax_numeral (s : String) : strtoimax (cString s) =
    if signedValue (numeral s) > 2^63 - 1 then (2^63 - 1, true)
    else if signedValue (numeral s) < -2^63 then (-2^63, true)
    else (signedValue (numeral s), false) := by
  unfold strtoimax numeral
  cases scan 0 (cString s) <;> rfl

theorem strtoumax_numeral (s : String) : strtoumax (cString s) =
    if (numeral s).2 > 2^64 - 1 then (2^64 - 1, true)
    else (signedValue (numeral s) % 2^64, false) := by
  unfold strtoumax numeral
  cases scan 0 (cString s) <;> rfl

theorem setErange_run {α : Type} (erange : Bool) (next : Unit → Parse α) (errno : Errno) :
    (Suval.setErange erange >>= next).run errno =
      (next ()).run (if erange = true then .erange else errno) := by
  cases erange <;> rfl

theorem signed_inRange {vt : ValueType} (hsigned : valueSigned vt = true) {n : ℤ}
    (hlo : -2^63 ≤ n) (hhi : n < 2^63) :
    valueInRange Int64.ofInt (Int64.ofInt n) vt = true ↔ InRange vt n := by
  rw [valueInRange_signed hsigned, Int64.toInt_ofInt_of_le hlo hhi]
  rfl

theorem unsigned_inRange {vt : ValueType} (hvalid : vt ≠ .invalid)
    (hsigned : valueSigned vt = false) {n : ℤ} (hlo : 0 ≤ n) (hhi : n < 2^64) :
    valueInRange UInt64.ofInt (UInt64.ofInt n) vt = true ↔ InRange vt n := by
  rw [valueInRange_unsigned hvalid hsigned, toNat_ofInt hlo hhi, InRange,
    numericMin_unsigned hsigned]
  exact (and_iff_right hlo).symm

theorem assignFromString_signed {s : String} {vt : ValueType} (hsigned : valueSigned vt = true)
    (errno : Errno) : (Suval.assignFromString s vt).run errno =
      if Raises s vt then .error (outOfRange s vt) .erange
      else if errno = .erange ∨ ¬ InRange vt (parsedValue s vt) then
        .error (outOfRange s vt) errno
      else .ok (stored vt (parsedValue s vt)) errno := by
  have raises := raises_signed hsigned s
  rw [Suval.assignFromString, if_pos hsigned, strtoimax_numeral, parsedValue_signed hsigned]
  by_cases high : 2^63 - 1 < signedValue (numeral s)
  · rw [if_pos high, if_pos (raises.mpr (.inr high))]
    dsimp only
    rw [setErange_run, if_pos rfl, storeInRange_erange]
  · by_cases low : signedValue (numeral s) < -2^63
    · rw [if_neg high, if_pos low, if_pos (raises.mpr (.inl low))]
      dsimp only
      rw [setErange_run, if_pos rfl, storeInRange_erange]
    · have inRange := signed_inRange (n := signedValue (numeral s)) hsigned (by omega) (by omega)
      rw [if_neg high, if_neg low, if_neg (fun h => (raises.mp h).elim low high)]
      dsimp only
      rw [setErange_run, if_neg Bool.false_ne_true, storeInRange_run inRange, stored,
        if_pos hsigned]

theorem parseUnsigned_run {s : String} {α : Type} (next : UInt64 → Parse α) (errno : Errno) :
    (Suval.parseUnsigned s >>= next).run errno =
      if MinusFirst s then (next 0).run .erange
      else if 2^64 ≤ (numeral s).2 then (next (UInt64.ofInt (2^64 - 1))).run .erange
      else (next (UInt64.ofInt (signedValue (numeral s) % 2^64))).run errno := by
  unfold Suval.parseUnsigned
  split
  · next h =>
    have minus : MinusFirst s := by rw [MinusFirst, h, List.head?_cons]
    rw [if_pos minus]
    rfl
  · next h =>
    have other : ¬ MinusFirst s := by
      intro hhead
      obtain ⟨rest, hrest⟩ := List.head?_eq_some_iff.mp hhead
      exact h rest hrest
    rw [if_neg other, strtoumax_numeral]
    by_cases high : 2^64 ≤ (numeral s).2
    · rw [if_pos high, if_pos (by omega)]
      rfl
    · rw [if_neg high, if_neg (by omega)]
      rfl

theorem assignFromString_unsigned {s : String} {vt : ValueType} (hvalid : vt ≠ .invalid)
    (hsigned : valueSigned vt = false) (errno : Errno) : (Suval.assignFromString s vt).run errno =
      if Raises s vt then .error (outOfRange s vt) .erange
      else if errno = .erange ∨ ¬ InRange vt (parsedValue s vt) then
        .error (outOfRange s vt) errno
      else .ok (stored vt (parsedValue s vt)) errno := by
  have unsigned : ¬ valueSigned vt = true := by simp [hsigned]
  have raises := raises_unsigned hsigned s
  rw [Suval.assignFromString, if_neg unsigned, parseUnsigned_run, parsedValue_unsigned hsigned]
  by_cases minus : MinusFirst s
  · rw [if_pos minus, if_pos (raises.mpr (.inl minus)), storeInRange_erange]
  · by_cases high : 2^64 ≤ (numeral s).2
    · rw [if_neg minus, if_pos high, if_pos (raises.mpr (.inr high)), storeInRange_erange]
    · have inRange := unsigned_inRange (n := signedValue (numeral s) % 2^64) hvalid hsigned
        (by omega) (by omega)
      rw [if_neg minus, if_neg high, if_neg (fun h => (raises.mp h).elim minus high),
        storeInRange_run inRange, stored, if_neg unsigned]

/-- One call: `errno` is only ever set, and a call that finds it set throws. -/
theorem assignFromString_run {vt : ValueType} (hvalid : vt ≠ .invalid) (s : String)
    (errno : Errno) : (Suval.assignFromString s vt).run errno =
      if Raises s vt then .error (outOfRange s vt) .erange
      else if errno = .erange ∨ ¬ InRange vt (parsedValue s vt) then
        .error (outOfRange s vt) errno
      else .ok (stored vt (parsedValue s vt)) errno := by
  cases hsigned : valueSigned vt with
  | true => exact assignFromString_signed hsigned errno
  | false => exact assignFromString_unsigned hvalid hsigned errno

/-- `assign_from_string` on the object it is called on, which a throw leaves alone. -/
def assignTo (s : String) (vt : ValueType) : EStateM Exception (Suval × Errno) Unit :=
  fun (object, errno) =>
    match (Suval.assignFromString s vt).run errno with
    | .ok value errno => .ok () (value, errno)
    | .error e errno => .error e (object, errno)

def mathValue : Suval → ℤ
  | .signed sval => sval.toInt
  | .unsigned uval => uval.toNat

def taggedSigned : Suval → Bool
  | .signed _ => true
  | .unsigned _ => false

/-- On a clear `errno` the call stores `n` under the tag of its type if the type has `n`,
    and otherwise throws. -/
def ReadsExactly (s : String) (vt : ValueType) (n : ℤ) : Prop := ∀ object : Suval,
  (InRange vt n → ∃ value errno', (assignTo s vt).run (object, .other) = .ok () (value, errno') ∧
    mathValue value = n ∧ taggedSigned value = valueSigned vt) ∧
  (¬ InRange vt n → ∃ errno', (assignTo s vt).run (object, .other) =
    .error (outOfRange s vt) (object, errno'))

theorem stored_value {vt : ValueType} {n : ℤ} (h : InRange vt n) :
    mathValue (stored vt n) = n ∧ taggedSigned (stored vt n) = valueSigned vt := by
  obtain ⟨hmin, hmax⟩ := h
  unfold stored
  cases hsigned : valueSigned vt with
  | true =>
    obtain ⟨low, high⟩ := numericRange_signed hsigned
    rw [if_pos rfl]
    exact ⟨Int64.toInt_ofInt_of_le (by omega) (by omega), rfl⟩
  | false =>
    obtain ⟨_, high⟩ := numericMax_unsigned vt
    rw [numericMin_unsigned hsigned] at hmin
    rw [if_neg Bool.false_ne_true]
    exact ⟨toNat_ofInt hmin (by omega), rfl⟩

theorem assignTo_run {vt : ValueType} (hvalid : vt ≠ .invalid) (s : String) (object : Suval) :
    (assignTo s vt).run (object, .other) =
      if Raises s vt then .error (outOfRange s vt) (object, .erange)
      else if InRange vt (parsedValue s vt) then .ok () (stored vt (parsedValue s vt), .other)
      else .error (outOfRange s vt) (object, .other) := by
  change (match (Suval.assignFromString s vt).run .other with
    | .ok value errno => .ok () (value, errno)
    | .error e errno => .error e (object, errno) : EStateM.Result _ _ _) = _
  rw [assignFromString_run hvalid]
  by_cases hraises : Raises s vt
  · rw [if_pos hraises, if_pos hraises]
  · by_cases hrange : InRange vt (parsedValue s vt)
    · rw [if_neg hraises, if_neg hraises, if_neg (by simpa using hrange), if_pos hrange]
    · rw [if_neg hraises, if_neg hraises, if_pos (.inr hrange), if_neg hrange]

theorem readsExactly_of_throws {s : String} {vt : ValueType} {n : ℤ} {errno' : Errno}
    (hrun : ∀ object, (assignTo s vt).run (object, .other) =
      .error (outOfRange s vt) (object, errno')) : ReadsExactly s vt n ↔ ¬ InRange vt n := by
  constructor
  · intro h hn
    obtain ⟨value, _, hok, _⟩ := (h (.signed 0)).1 hn
    rw [hrun] at hok
    cases hok
  · intro hn object
    exact ⟨fun h => absurd h hn, fun _ => ⟨errno', hrun object⟩⟩

theorem readsExactly_of_returns {s : String} {vt : ValueType} {n p : ℤ} (hp : InRange vt p)
    (hrun : ∀ object, (assignTo s vt).run (object, .other) = .ok () (stored vt p, .other)) :
    ReadsExactly s vt n ↔ p = n := by
  obtain ⟨hvalue, htag⟩ := stored_value hp
  constructor
  · intro h
    by_cases hn : InRange vt n
    · obtain ⟨value, _, hok, hmath, _⟩ := (h (.signed 0)).1 hn
      rw [hrun] at hok
      cases hok
      rw [← hvalue, hmath]
    · obtain ⟨_, herror⟩ := (h (.signed 0)).2 hn
      rw [hrun] at herror
      cases herror
  · rintro rfl object
    exact ⟨fun _ => ⟨_, _, hrun object, hvalue, htag⟩, fun h => absurd hp h⟩

theorem readsExactly_iff {vt : ValueType} (hvalid : vt ≠ .invalid) (s : String) (n : ℤ) :
    ReadsExactly s vt n ↔
      (Raises s vt ∨ ¬ InRange vt (parsedValue s vt) → ¬ InRange vt n) ∧
      (¬ Raises s vt → InRange vt (parsedValue s vt) → parsedValue s vt = n) := by
  by_cases hraises : Raises s vt
  · rw [readsExactly_of_throws (fun object => by rw [assignTo_run hvalid, if_pos hraises])]
    exact ⟨fun hn => ⟨fun _ => hn, fun h => absurd hraises h⟩, fun h => h.1 (.inl hraises)⟩
  · by_cases hrange : InRange vt (parsedValue s vt)
    · rw [readsExactly_of_returns hrange
        (fun object => by rw [assignTo_run hvalid, if_neg hraises, if_pos hrange])]
      exact ⟨fun hp => ⟨fun h => (h.elim hraises (· hrange)).elim, fun _ _ => hp⟩,
        fun h => h.2 hraises hrange⟩
    · rw [readsExactly_of_throws
        (fun object => by rw [assignTo_run hvalid, if_neg hraises, if_neg hrange])]
      exact ⟨fun hn => ⟨fun _ => hn, fun _ h => absurd h hrange⟩, fun h => h.1 (.inr hrange)⟩

theorem numeral_eq {s : String} {negative : Bool} {m : ℕ}
    (h : LeadingNumeral s.toList negative m) : numeral s = (negative, m) := by
  rw [numeral, scan_leadingNumeral (leadingNumeral_cString h), Option.getD_some]

theorem head_after_blanks {spaces tail : List Char} {y : Char}
    (hspaces : ∀ c ∈ spaces, isSpace c = true) (hblank : y ≠ ' ') (hminus : y ≠ '-') :
    ((spaces ++ y :: tail).dropWhile (fun c => c = ' ')).head? ≠ some '-' := by
  induction spaces with
  | nil =>
    rw [List.nil_append, List.dropWhile_cons_of_neg (by simpa using hblank)]
    simpa using hminus
  | cons c spaces ih =>
    by_cases h : c = ' '
    · rw [List.cons_append, List.dropWhile_cons_of_pos (by simpa using h)]
      exact ih (fun d hd => hspaces d (by simp [hd]))
    · rw [List.cons_append, List.dropWhile_cons_of_neg (by simpa using h), List.head?_cons]
      intro hc
      obtain rfl := Option.some.inj hc
      exact absurd (hspaces '-' (by simp)) (by decide)

/-- The textual test finds only minus signs that the library finds too. -/
theorem minusFirst_negative {s : String} {negative : Bool} {m : ℕ}
    (h : LeadingNumeral s.toList negative m) (hminus : MinusFirst s) : negative = true := by
  obtain ⟨spaces, sign, body, hs, hspaces, hsign, lit, rest, rfl, hlit, _⟩ := h
  obtain ⟨c, tail, rfl, hc⟩ := hlit.head
  have digit := digit_range hc
  rw [MinusFirst, hs, List.append_assoc] at hminus
  cases hsign with
  | absent =>
    refine absurd hminus (head_after_blanks hspaces ?_ ?_)
    · rintro rfl
      revert digit
      decide
    · rintro rfl
      revert digit
      decide
  | plus => exact absurd hminus (head_after_blanks hspaces (by decide) (by decide))
  | minus => rfl

theorem readsExactly_signed {s : String} {vt : ValueType} {negative : Bool} {m : ℕ}
    (hsigned : valueSigned vt = true) (h : LeadingNumeral s.toList negative m) :
    ReadsExactly s vt (signedValue (negative, m)) := by
  obtain ⟨low, high⟩ := numericRange_signed hsigned
  have hvalid : vt ≠ .invalid := by
    rintro rfl
    cases hsigned
  rw [readsExactly_iff hvalid, raises_signed hsigned, parsedValue_signed hsigned, numeral_eq h]
  refine ⟨?_, fun _ _ => rfl⟩
  rintro (hraises | hrange) hn
  · obtain ⟨hmin, hmax⟩ := hn
    omega
  · exact hrange hn

theorem readsExactly_unsigned {s : String} {vt : ValueType} {negative : Bool} {m : ℕ}
    (hvalid : vt ≠ .invalid) (hsigned : valueSigned vt = false)
    (h : LeadingNumeral s.toList negative m) : ReadsExactly s vt (signedValue (negative, m)) ↔
      (negative = true →
        if MinusFirst s then m ≠ 0 else m = 0 ∨ 2^64 ≤ m ∨ numericMax vt < 2^64 - (m : ℤ)) := by
  obtain ⟨zero, high⟩ := numericMax_unsigned vt
  have minus := minusFirst_negative h
  rw [readsExactly_iff hvalid, raises_unsigned hsigned, parsedValue_unsigned hsigned, numeral_eq h]
  unfold InRange
  rw [numericMin_unsigned hsigned]
  cases negative with
  | false =>
    have plain : ¬ MinusFirst s := fun hminus => absurd (minus hminus) Bool.false_ne_true
    simp only [plain, signedValue, false_or, Bool.false_eq_true, false_implies, iff_true]
    omega
  | true =>
    by_cases hminus : MinusFirst s
    · simp only [hminus, signedValue, true_or, if_true, true_implies, not_true, false_implies,
        and_true]
      omega
    · simp only [hminus, signedValue, false_or, if_false, true_implies]
      omega

/-- The value is read exactly except where a minus sign meets an unsigned type: a zero
    behind blanks is refused, and behind other white space the sign goes unnoticed and the
    wrapped value may lie in range. -/
theorem assignFromString_reads_iff {s : String} {vt : ValueType} {negative : Bool} {m : ℕ}
    (hvalid : vt ≠ .invalid) (h : LeadingNumeral s.toList negative m) :
    ReadsExactly s vt (signedValue (negative, m)) ↔
      (valueSigned vt = false → negative = true →
        if MinusFirst s then m ≠ 0 else m = 0 ∨ 2^64 ≤ m ∨ numericMax vt < 2^64 - (m : ℤ)) := by
  cases hsigned : valueSigned vt with
  | true => exact ⟨fun _ hfalse => absurd hfalse (by simp), fun _ => readsExactly_signed hsigned h⟩
  | false =>
    rw [readsExactly_unsigned hvalid hsigned h]
    exact ⟨fun hread _ => hread, fun hread => hread rfl⟩

/-- An unsigned type refuses what is negative, and the zero that is not. -/
theorem assignFromString_reads_minusFive : ReadsExactly " -5" .int16 (-5) ∧
    ReadsExactly " -5" .uint16 (-5) ∧ ¬ ReadsExactly " -0" .uint16 (-0) := by
  have five : Literal ['5'] 5 := digit_literal rfl (by decide)
  have zero : Literal ['0'] 0 := .octal [] (List.forall_mem_nil _)
  have minusFive : LeadingNumeral " -5".toList true 5 :=
    ⟨[' '], ['-'], ['5'], rfl, List.forall_mem_singleton.mpr rfl, .minus, five.leading⟩
  have minusZero : LeadingNumeral " -0".toList true 0 :=
    ⟨[' '], ['-'], ['0'], rfl, List.forall_mem_singleton.mpr rfl, .minus, zero.leading⟩
  exact ⟨(assignFromString_reads_iff (by decide) minusFive).mpr (by decide),
    (assignFromString_reads_iff (by decide) minusFive).mpr (by decide),
    mt (assignFromString_reads_iff (by decide) minusZero).mp (by decide)⟩

/-- Behind a tab the minus sign is seen by the library only, which wraps the value around. -/
theorem tabMinus_wraps : LeadingNumeral "\t-5".toList true 5 ∧ ¬ InRange .uint64 (-5) ∧
    (∀ object, (assignTo "\t-5" .uint64).run (object, .other) =
      .ok () (.unsigned 18446744073709551611, .other)) ∧ ¬ ReadsExactly "\t-5" .uint64 (-5) := by
  have lit : Literal ['5'] 5 := digit_literal rfl (by decide)
  have wraps : ∀ object, (assignTo "\t-5" .uint64).run (object, .other) =
      .ok () (.unsigned 18446744073709551611, .other) := fun _ => rfl
  refine ⟨⟨['\t'], ['-'], ['5'], rfl, List.forall_mem_singleton.mpr rfl, .minus, lit.leading⟩, by decide, wraps, ?_⟩
  intro h
  obtain ⟨_, herror⟩ := (h (.unsigned 0)).2 (by decide)
  rw [wraps] at herror
  cases herror

/-! A sequence of calls. -/

abbrev Call := String × ValueType

def callFrom (errno : Errno) (c : Call) : Except Exception Suval × Errno :=
  match (Suval.assignFromString c.1 c.2).run errno with
  | .ok value errno => (.ok value, errno)
  | .error e errno => (.error e, errno)

/-- The outcomes of the calls, each of which finds `errno` as the last one left it. -/
def outcomes : Errno → List Call → List (Except Exception Suval)
  | _, [] => []
  | errno, c :: calls => (callFrom errno c).1 :: outcomes (callFrom errno c).2 calls

/-- The call is accepted if it finds `errno` clear. -/
def Accepted (c : Call) : Prop := ¬ Raises c.1 c.2 ∧ InRange c.2 (parsedValue c.1 c.2)

theorem callFrom_errno {c : Call} (hvalid : c.2 ≠ .invalid) (errno : Errno) :
    (callFrom errno c).2 = if Raises c.1 c.2 then .erange else errno := by
  rw [callFrom, assignFromString_run hvalid]
  split_ifs <;> rfl

theorem callFrom_outcome {c : Call} (hvalid : c.2 ≠ .invalid) (errno : Errno) :
    (callFrom errno c).1 = (callFrom .other c).1 ↔ (Accepted c → errno ≠ .erange) := by
  unfold callFrom Accepted
  rw [assignFromString_run hvalid, assignFromString_run hvalid]
  by_cases hraises : Raises c.1 c.2
  · rw [if_pos hraises, if_pos hraises]
    exact ⟨fun _ h => absurd hraises h.1, fun _ => rfl⟩
  · rw [if_neg hraises, if_neg hraises]
    by_cases hrange : InRange c.2 (parsedValue c.1 c.2)
    · have accepted : Accepted c := ⟨hraises, hrange⟩
      cases errno with
      | other => exact ⟨fun _ _ => by decide, fun _ => rfl⟩
      | erange =>
        rw [if_pos (.inl rfl), if_neg (by simpa using hrange)]
        exact ⟨nofun, fun h => absurd rfl (h accepted)⟩
    · rw [if_pos (.inr hrange), if_pos (.inr hrange)]
      exact ⟨fun _ h => absurd h.2 hrange, fun _ => rfl⟩

/-- No call that would be accepted comes after one that raises, or after an `ERANGE` that
    was there before the first. -/
def NoneSpoiled (errno : Errno) (calls : List Call) : Prop :=
  ∀ before c after, calls = before ++ c :: after → Accepted c →
    errno ≠ .erange ∧ ∀ b ∈ before, ¬ Raises b.1 b.2

theorem noneSpoiled_cons (errno : Errno) (c : Call) (calls : List Call) :
    NoneSpoiled errno (c :: calls) ↔ (Accepted c → errno ≠ .erange) ∧
      NoneSpoiled (if Raises c.1 c.2 then .erange else errno) calls := by
  constructor
  · intro h
    refine ⟨fun hc => (h [] c calls rfl hc).1, ?_⟩
    intro before d after hsplit hd
    obtain ⟨hclear, hbefore⟩ := h (c :: before) d after (by rw [hsplit]; rfl) hd
    rw [if_neg (hbefore c (by simp))]
    exact ⟨hclear, fun b hb => hbefore b (by simp [hb])⟩
  · rintro ⟨hhead, htail⟩ before d after hsplit hd
    cases before with
    | nil =>
      obtain ⟨rfl, rfl⟩ := List.cons.inj hsplit
      exact ⟨hhead hd, by simp⟩
    | cons b before =>
      obtain ⟨rfl, hrest⟩ := List.cons.inj hsplit
      obtain ⟨hclear, hbefore⟩ := htail before d after hrest hd
      by_cases hraises : Raises c.1 c.2
      · rw [if_pos hraises] at hclear
        exact absurd rfl hclear
      · rw [if_neg hraises] at hclear
        exact ⟨hclear, List.forall_mem_cons.mpr ⟨hraises, hbefore⟩⟩

/-- Parsing forgets the past exactly as long as no call is spoiled by it. -/
theorem outcomes_independent_iff (errno : Errno) (calls : List Call)
    (hvalid : ∀ c ∈ calls, c.2 ≠ .invalid) :
    outcomes errno calls = calls.map (fun c => (callFrom .other c).1) ↔
      NoneSpoiled errno calls := by
  induction calls generalizing errno with
  | nil => exact ⟨fun _ before c after h => by simp at h, fun _ => rfl⟩
  | cons c calls ih =>
    obtain ⟨hc, hcalls⟩ := List.forall_mem_cons.mp hvalid
    rw [outcomes, List.map_cons, List.cons.injEq, callFrom_outcome hc, callFrom_errno hc,
      ih _ hcalls, noneSpoiled_cons]

theorem outcomes_independent_two :
    outcomes .other [("5", .uint16), ("-1", .uint16)] =
      [("5", .uint16), ("-1", .uint16)].map (fun c => (callFrom .other c).1) := by
  have unspoiled : NoneSpoiled .other [("5", .uint16), ("-1", .uint16)] := by
    rw [noneSpoiled_cons, noneSpoiled_cons]
    exact ⟨fun _ => by decide, fun h => absurd (by decide) h.1,
      fun before c after h => by simp at h⟩
  exact (outcomes_independent_iff .other _ (by decide)).mpr unspoiled

/-- The refused minus sign also costs the call after it. -/
theorem outcomes_spoiled :
    outcomes .other [("-1", .uint16), ("5", .uint16)] =
      [.error (outOfRange "-1" .uint16), .error (outOfRange "5" .uint16)] ∧
    (callFrom .other ("5", .uint16)).1 = .ok (.unsigned 5) ∧
    outcomes .other [("-1", .uint16), ("5", .uint16)] ≠
      [("-1", .uint16), ("5", .uint16)].map (fun c => (callFrom .other c).1) := by
  have spoiled : outcomes .other [("-1", .uint16), ("5", .uint16)] =
    [.error (outOfRange "-1" .uint16), .error (outOfRange "5" .uint16)] := rfl
  have clear : [("-1", .uint16), ("5", .uint16)].map (fun c => (callFrom .other c).1) =
    [.error (outOfRange "-1" .uint16), .ok (.unsigned 5)] := rfl
  refine ⟨spoiled, rfl, ?_⟩
  rw [spoiled, clear]
  intro h
  cases h

end ModbusCrawler.Thresholds
