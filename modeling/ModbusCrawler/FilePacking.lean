import ModbusCrawler.ModbusOps
import ModbusCrawler.ReflectedCrc

set_option autoImplicit false

/-!
# Packing a file into registers

The table-driven `CRC32` against the bit-at-a-time register, and the two
paddings of `registersFromFile` against one padding of the byte string.
-/
namespace ModbusCrawler.FilePacking
open ModbusTypes ModbusOps

/-- CRC-32 bit at a time: reflected, preset and final complement. -/
def crc32 (bytes : List UInt8) : UInt32 :=
  ⟨ReflectedCrc.checksum CRC32.polynomial.toBitVec (bytes.map UInt8.toBitVec)⟩

def registerBytes (r : UInt16) : List UInt8 := [(r >>> 8).toUInt8, r.toUInt8]

def expand (content : List UInt16) : List UInt8 := content.flatMap registerBytes

def padded (bytes : List UInt8) : List UInt8 :=
  bytes ++ List.replicate ((4 - bytes.length % 4) % 4) 0

theorem low_bit (c : UInt32) : c &&& 1 ≠ 0 ↔ c.toBitVec.getLsbD 0 = true := by
  have h : (c &&& 1).toBitVec = BitVec.setWidth 32 (BitVec.ofBool (c.toBitVec.getLsbD 0)) := by
    rw [UInt32.toBitVec_and]
    exact BitVec.and_one_eq_setWidth_ofBool_getLsbD
  rw [Ne, ← UInt32.toBitVec_inj, h]
  cases c.toBitVec.getLsbD 0 <;> decide

theorem tableLoop_toBitVec (n : ℕ) (c : UInt32) :
    (CRC32.tableLoop n c).toBitVec =
      ReflectedCrc.bitSteps CRC32.polynomial.toBitVec n c.toBitVec := by
  induction n generalizing c with
  | zero => rfl
  | succ n ih =>
    rw [CRC32.tableLoop, ih, ReflectedCrc.bitSteps, ReflectedCrc.bitStep]
    by_cases h : c.toBitVec.getLsbD 0 = true
    · rw [if_pos ((low_bit c).mpr h), if_pos h]
      rfl
    · rw [if_neg (fun hc => h ((low_bit c).mp hc)), if_neg h]
      rfl

theorem lookup_eq (i : UInt32) (h : i.toNat < 256) : CRC32.lookup i = CRC32.tableLoop 8 i := by
  have size : i.toNat < CRC32.table.toArray.size := by simpa using h
  have entry : CRC32.table.toArray[i.toNat] = CRC32.tableLoop 8 (UInt32.ofNat i.toNat) := by
    simp [CRC32.table]
  unfold CRC32.lookup
  rw [Array.getD_eq_getD_getElem?, Array.getElem?_eq_getElem size, Option.getD_some, entry,
    UInt32.ofNat_toNat]

theorem masked_toBitVec (x : UInt32) :
    (x &&& 0xFF).toBitVec = (x.toBitVec.setWidth 8).setWidth 32 := by
  apply BitVec.eq_of_toNat_eq
  rw [UInt32.toBitVec_and, BitVec.toNat_and, BitVec.toNat_setWidth, BitVec.toNat_setWidth]
  have mask : (0xFF : UInt32).toBitVec.toNat = 2^8 - 1 := rfl
  have byte : x.toBitVec.toNat % 2^8 < 2^32 := by omega
  rw [mask, Nat.and_two_pow_sub_one_eq_mod, Nat.mod_eq_of_lt byte]

theorem table_step (c : UInt32) (byte : UInt8) :
    (CRC32.lookup ((c ^^^ byte.toUInt32) &&& 0xFF) ^^^ (c >>> 8)).toBitVec =
      ReflectedCrc.byteStep CRC32.polynomial.toBitVec c.toBitVec byte.toBitVec := by
  have small : ((c ^^^ byte.toUInt32) &&& 0xFF).toNat < 256 := by
    rw [← UInt32.toNat_toBitVec, masked_toBitVec, BitVec.toNat_setWidth, BitVec.toNat_setWidth]
    omega
  rw [lookup_eq _ small, UInt32.toBitVec_xor, tableLoop_toBitVec, masked_toBitVec,
    ReflectedCrc.byteStep_eq_table, UInt32.toBitVec_xor, UInt8.toBitVec_toUInt32]
  rfl

theorem complement_toBitVec (c : UInt32) : (c ^^^ 0xFFFFFFFF).toBitVec = ~~~ c.toBitVec := by
  rw [UInt32.toBitVec_xor]
  exact BitVec.xor_allOnes

theorem update_toBitVec (initial : UInt32) (byte : UInt8) :
    (CRC32.update initial byte).toBitVec = ~~~ ReflectedCrc.byteStep CRC32.polynomial.toBitVec
      (~~~ initial.toBitVec) byte.toBitVec := by
  unfold CRC32.update
  dsimp only
  rw [complement_toBitVec, table_step, complement_toBitVec]

/-- The final complement of one call is undone by the next. -/
theorem foldl_update_toBitVec (bytes : List UInt8) (initial : UInt32) :
    (bytes.foldl CRC32.update initial).toBitVec =
      ~~~ (bytes.map UInt8.toBitVec).foldl
        (ReflectedCrc.byteStep CRC32.polynomial.toBitVec) (~~~ initial.toBitVec) := by
  induction bytes generalizing initial with
  | nil => simp
  | cons byte bytes ih =>
    rw [List.foldl_cons, ih, update_toBitVec, List.map_cons, List.foldl_cons, BitVec.not_not]

theorem foldl_update_eq_crc32 (bytes : List UInt8) : bytes.foldl CRC32.update 0 = crc32 bytes := by
  apply UInt32.toBitVec_inj.mp
  rw [foldl_update_toBitVec]
  rfl

theorem tableFold_toBitVec (buf : List UInt8) (c : UInt32) :
    (buf.foldl (fun c u => CRC32.lookup ((c ^^^ u.toUInt32) &&& 0xFF) ^^^ (c >>> 8)) c).toBitVec =
      (buf.map UInt8.toBitVec).foldl (ReflectedCrc.byteStep CRC32.polynomial.toBitVec)
        c.toBitVec := by
  induction buf generalizing c with
  | nil => rfl
  | cons u buf ih => rw [List.foldl_cons, ih, table_step, List.map_cons, List.foldl_cons]

theorem updateBuf_eq_foldl (initial : UInt32) (buf : List UInt8) :
    CRC32.updateBuf initial buf = buf.foldl CRC32.update initial := by
  apply UInt32.toBitVec_inj.mp
  rw [CRC32.updateBuf, complement_toBitVec, tableFold_toBitVec, complement_toBitVec,
    foldl_update_toBitVec]

theorem foldl_updateBuf (pieces : List (List UInt8)) (initial : UInt32) :
    pieces.foldl CRC32.updateBuf initial = pieces.flatten.foldl CRC32.update initial := by
  induction pieces generalizing initial with
  | nil => rfl
  | cons piece pieces ih =>
    rw [List.foldl_cons, ih, updateBuf_eq_foldl, List.flatten_cons, List.foldl_append]

/-- The three ways of updating agree, and from 0 they are the bitwise CRC-32. -/
theorem crc32_tableDriven :
    (∀ bytes : List UInt8, (bytes.foldl CRC32.update 0).toBitVec =
      ReflectedCrc.checksum 0xEDB88320#32 (bytes.map UInt8.toBitVec)) ∧
    ∀ (initial : UInt32) (pieces : List (List UInt8)),
      CRC32.updateBuf initial pieces.flatten = pieces.flatten.foldl CRC32.update initial ∧
      pieces.foldl CRC32.updateBuf initial = pieces.flatten.foldl CRC32.update initial := by
  refine ⟨fun bytes => ?_, fun initial pieces => ⟨?_, foldl_updateBuf pieces initial⟩⟩
  · rw [foldl_update_eq_crc32]
    rfl
  · exact updateBuf_eq_foldl initial pieces.flatten

theorem registerBytes_pack (high low : UInt8) :
    registerBytes (high.toUInt16 <<< 8 ||| low.toUInt16) = [high, low] := by
  have h : ((high.toUInt16 <<< 8 ||| low.toUInt16) >>> 8).toUInt8 = high := by
    apply UInt8.toBitVec_inj.mp
    apply BitVec.eq_of_getLsbD_eq
    intro i hi
    have upper : 8 + i < 16 := by omega
    have word : i < 16 := by omega
    simp [hi, upper, word]
  have l : (high.toUInt16 <<< 8 ||| low.toUInt16).toUInt8 = low := by
    apply UInt8.toBitVec_inj.mp
    apply BitVec.eq_of_getLsbD_eq
    intro i hi
    simp [hi]
  rw [registerBytes, h, l]

theorem expand_append (xs ys : List UInt16) : expand (xs ++ ys) = expand xs ++ expand ys :=
  List.flatMap_append

theorem expand_length (content : List UInt16) : (expand content).length = 2 * content.length := by
  induction content with
  | nil => rfl
  | cons r rest ih =>
    change (registerBytes r ++ expand rest).length = _
    rw [List.length_append, ih, List.length_cons]
    change 2 + _ = _
    omega

/-- The bytes the read loop packs: the input, with the missing low byte of an odd length. -/
def evenPadded (bytes : List UInt8) : List UInt8 := bytes ++ List.replicate (bytes.length % 2) 0

theorem evenPadded_cons_cons (high low : UInt8) (it : List UInt8) :
    evenPadded (high :: low :: it) = high :: low :: evenPadded it := by
  have h : (high :: low :: it).length % 2 = it.length % 2 := by
    simp only [List.length_cons]
    omega
  rw [evenPadded, h]
  rfl

theorem packLoop_spec (it : List UInt8) (content : List UInt16) (crc : UInt32) :
    expand (packLoop it content crc).1 = expand content ++ evenPadded it ∧
      (packLoop it content crc).2 = (evenPadded it).foldl CRC32.update crc := by
  fun_induction packLoop it content crc with
  | case1 content crc => exact ⟨by simp [evenPadded], rfl⟩
  | case2 high content crc =>
    have odd : evenPadded [high] = [high, 0] := rfl
    rw [odd, expand_append, List.foldl_cons, List.foldl_cons, List.foldl_nil]
    refine ⟨?_, rfl⟩
    congr 1
    exact (List.append_nil _).trans (registerBytes_pack high 0)
  | case3 high low it content crc ih =>
    rw [evenPadded_cons_cons, List.foldl_cons, List.foldl_cons]
    refine ⟨?_, ih.2⟩
    rw [ih.1, expand_append, List.append_assoc]
    congr 1
    change registerBytes _ ++ [] ++ _ = _
    rw [registerBytes_pack]
    rfl

theorem alignLoop_eq (content : List UInt16) (crc : UInt32) :
    alignLoop content crc = if content.length % 2 = 1 then
      (content ++ [0], CRC32.update (CRC32.update crc 0) 0) else (content, crc) := by
  rw [alignLoop]
  by_cases h : content.length % 2 = 1
  · have even : ¬ (content ++ [0]).length % 2 ≠ 0 := by
      rw [List.length_append, List.length_singleton]
      omega
    rw [if_pos (by omega), alignLoop, if_neg even, if_pos h]
  · rw [if_neg (by omega), if_neg h]

theorem alignLoop_spec (content : List UInt16) (crc : UInt32) :
    expand (alignLoop content crc).1 =
        expand content ++ List.replicate (2 * (content.length % 2)) 0 ∧
      (alignLoop content crc).2 =
        (List.replicate (2 * (content.length % 2)) (0 : UInt8)).foldl CRC32.update crc ∧
      (alignLoop content crc).1.length % 2 = 0 := by
  rw [alignLoop_eq]
  by_cases h : content.length % 2 = 1
  · rw [if_pos h, h]
    refine ⟨expand_append _ _, rfl, ?_⟩
    rw [List.length_append, List.length_singleton]
    omega
  · have zero : content.length % 2 = 0 := by omega
    rw [if_neg h, zero]
    exact ⟨by simp, rfl, rfl⟩

theorem evenPadded_length (bytes : List UInt8) :
    (evenPadded bytes).length = bytes.length + bytes.length % 2 := by simp [evenPadded]

/-- Both paddings together are the one to a multiple of four bytes. -/
theorem padded_eq (bytes : List UInt8) : padded bytes =
    evenPadded bytes ++ List.replicate (2 * ((evenPadded bytes).length / 2 % 2)) 0 := by
  have zeros : (4 - bytes.length % 4) % 4 =
      bytes.length % 2 + 2 * ((evenPadded bytes).length / 2 % 2) := by
    rw [evenPadded_length]
    omega
  rw [padded, evenPadded, List.append_assoc, List.replicate_append_replicate, zeros]
  rfl

theorem padded_length (bytes : List UInt8) :
    (padded bytes).length = bytes.length + (4 - bytes.length % 4) % 4 := by simp [padded]

theorem registersFromFile_ok {files : Files} {filename : String} {bytes : List UInt8}
    (h : files filename = some bytes) : ∃ content,
      registersFromFile files filename = .ok (content, crc32 (padded bytes)) ∧
      expand content = padded bytes ∧ content.length % 2 = 0 := by
  obtain ⟨hbytes, hcrc⟩ := packLoop_spec bytes [] 0
  obtain ⟨halign, hfold, heven⟩ := alignLoop_spec (packLoop bytes [] 0).1 (packLoop bytes [] 0).2
  have hlen : (packLoop bytes [] 0).1.length = (evenPadded bytes).length / 2 := by
    have := congrArg List.length hbytes
    rw [expand_length] at this
    simp only [expand, List.flatMap_nil, List.nil_append] at this
    omega
  have same : expand (alignLoop (packLoop bytes [] 0).1 (packLoop bytes [] 0).2).1 =
      padded bytes := by
    rw [halign, hbytes, hlen, padded_eq]
    rfl
  refine ⟨(alignLoop (packLoop bytes [] 0).1 (packLoop bytes [] 0).2).1, ?_, same, heven⟩
  rw [registersFromFile, h]
  dsimp only
  rw [← foldl_update_eq_crc32, padded_eq, List.foldl_append, ← hlen, ← hcrc, ← hfold]

/-- Every byte once and in order, then the fewest zeros that fill four-byte words; the
    reported CRC covers the zeros too. -/
theorem registersFromFile_exact {files : Files} {filename : String} {bytes : List UInt8}
    (h : files filename = some bytes) : ∃ (content : List UInt16) (zeros : ℕ),
      registersFromFile files filename = .ok (content, crc32 (expand content)) ∧
      content.length % 2 = 0 ∧
      expand content = bytes ++ List.replicate zeros 0 ∧
      4 ∣ bytes.length + zeros ∧ ∀ k, 4 ∣ bytes.length + k → zeros ≤ k := by
  obtain ⟨content, hread, hexpand, heven⟩ := registersFromFile_ok h
  refine ⟨content, (4 - bytes.length % 4) % 4, ?_, heven, hexpand, by omega, ?_⟩
  · rw [hread, hexpand]
  · intro k hk
    omega

theorem registersFromFile_exact_five : ∃ (content : List UInt16) (zeros : ℕ),
    registersFromFile (fun _ => some [1, 2, 3, 4, 5]) "image.bin" =
      .ok (content, crc32 (expand content)) ∧
    content.length % 2 = 0 ∧
    expand content = [1, 2, 3, 4, 5] ++ List.replicate zeros 0 ∧
    4 ∣ [1, 2, 3, 4, 5].length + zeros ∧ ∀ k, 4 ∣ [1, 2, 3, 4, 5].length + k → zeros ≤ k :=
  registersFromFile_exact (show (fun _ => some [1, 2, 3, 4, 5] : Files) "image.bin" = _ from rfl)

end ModbusCrawler.FilePacking
