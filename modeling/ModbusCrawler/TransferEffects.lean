import ModbusCrawler.FlashRuns

set_option autoImplicit false

/-!
# What an interrupted or a misplaced transfer does

The registers that `write_multiple_registers` leaves changed when some request
fails, and the addresses that its elements go to on the wire.
-/
namespace ModbusCrawler.TransferEffects
open BlockMemory FailStop ModbusTypes ModbusSlave ModbusOps FileTransfer

def applyAt (memory : ℤ → UInt16) : Request → ℤ → UInt16
  | .writeRegister address value => storeAt memory address [value]
  | .writeRegisters address _ src => storeAt memory address src
  | _ => memory

/-- The registers after a log, under the addresses that the requests name. -/
def registersAfter (memory : ℤ → UInt16) (log : Log Request Reply) : ℤ → UInt16 :=
  log.foldl (fun memory exchange =>
    if Acknowledged exchange then applyAt memory exchange.1 else memory) memory

theorem registersAfter_append (memory : ℤ → UInt16) (first second : Log Request Reply) :
    registersAfter memory (first ++ second) =
      registersAfter (registersAfter memory first) second := List.foldl_append

theorem registersAfter_write (memory : ℤ → UInt16) {exchange : Request × Reply} {address nb : ℤ}
    {src : List UInt16} (hrequest : exchange.1 = .writeRegisters address nb src)
    (hack : Acknowledged exchange) :
    registersAfter memory [exchange] = storeAt memory address src := by
  change (if Acknowledged exchange then applyAt memory exchange.1 else memory) = _
  rw [if_pos hack, hrequest]
  rfl

theorem registersAfter_failed (memory : ℤ → UInt16) {exchange : Request × Reply}
    (h : ¬ Acknowledged exchange) : registersAfter memory [exchange] = memory := if_neg h

theorem chunkSteps_length (left chunk : ℕ) (address : ℤ) (regs : List UInt16) :
    (chunkSteps left chunk address regs).length = left := by
  induction left generalizing chunk address regs with
  | zero => rfl
  | succ left ih => rw [chunkSteps, List.length_cons, ih]

theorem chunkSteps_take {k left : ℕ} (h : k ≤ left) (chunk : ℕ) (address : ℤ)
    (regs : List UInt16) :
    (chunkSteps left chunk address regs).take k = chunkSteps k chunk address regs := by
  induction k generalizing left chunk address regs with
  | zero => rfl
  | succ k ih =>
    obtain ⟨left, rfl⟩ : ∃ more, left = more + 1 := ⟨left - 1, by omega⟩
    rw [chunkSteps, chunkSteps, List.take_succ_cons, ih (by omega)]

theorem chunkSteps_registers (left chunk : ℕ) (address : ℤ) (regs : List UInt16)
    (memory : ℤ → UInt16) (sent : Log Request Reply)
    (h : List.Forall₂ Answered (chunkSteps left chunk address regs) sent)
    (hlen : modbusMaxWriteRegisters * left ≤ regs.length) :
    registersAfter memory sent =
      storeAt memory address (regs.take (modbusMaxWriteRegisters * left)) := by
  induction left generalizing chunk address regs memory sent with
  | zero =>
    cases h
    simp [registersAfter]
  | succ left ih =>
    rw [chunkSteps] at h
    rw [Nat.mul_succ] at hlen ⊢
    obtain ⟨exchange, sent', hhead, htail, rfl⟩ := List.forall₂_cons_left_iff.mp h
    have first := registersAfter_write memory hhead.1 ((chunkStep_checked _ _ _).answered hhead)
    have rest := ih (chunk + 1) (address + modbusMaxWriteRegisters)
      (regs.drop modbusMaxWriteRegisters)
      (storeAt memory address (regs.take modbusMaxWriteRegisters)) sent' htail
      (by rw [List.length_drop]; omega)
    have next : address + modbusMaxWriteRegisters =
        address + ((regs.take modbusMaxWriteRegisters).length : ℕ) := by
      rw [List.length_take_of_le (by omega)]
    rw [← List.singleton_append, registersAfter_append, first, rest, next, storeAt_append,
      Nat.add_comm, ← List.take_add]

def fullChunks (registers : List UInt16) : ℕ := registers.length / modbusMaxWriteRegisters

theorem fullChunks_le (registers : List UInt16) :
    modbusMaxWriteRegisters * fullChunks registers ≤ registers.length :=
  Nat.mul_div_le registers.length modbusMaxWriteRegisters

theorem vectorSteps_registers (address : ℤ) (registers : List UInt16) (memory : ℤ → UInt16)
    (sent : Log Request Reply) (h : List.Forall₂ Answered (vectorSteps address registers) sent) :
    registersAfter memory sent = storeAt memory address registers := by
  obtain ⟨size, chunks, exchange, rfl, hsize, whole, hchunks, hrequest, hack⟩ :=
    vectorSteps_answered h
  have first := chunkSteps_registers _ 0 address registers memory chunks hchunks (by omega)
  have second := registersAfter_write (registersAfter memory chunks) hrequest hack
  have next : address + size = address + ((registers.take size).length : ℕ) := by
    rw [List.length_take_of_le (by omega)]
  rw [registersAfter_append, second, first, ← hsize, next, storeAt_append, List.take_append_drop]

theorem vectorSteps_before {address : ℤ} {registers : List UInt16}
    {before after : List (Step Request Reply Exception)} {step : Step Request Reply Exception}
    (h : vectorSteps address registers = before ++ step :: after) :
    before.length ≤ fullChunks registers ∧
      before = chunkSteps before.length 0 address registers := by
  have split : vectorSteps address registers =
      chunkSteps (fullChunks registers) 0 address registers ++ [remainingStep _ _ _] := rfl
  rw [split] at h
  have length := congrArg List.length h
  simp only [List.length_append, List.length_cons, List.length_nil, chunkSteps_length] at length
  have short : before.length ≤ fullChunks registers := by omega
  have same := congrArg (List.take before.length) h
  rw [List.take_left, List.take_append_of_le_length (by rwa [chunkSteps_length]),
    chunkSteps_take short] at same
  exact ⟨short, same.symm⟩

/-- A run gets everything acknowledged, or it stops at the first request that is not. -/
theorem vector_cases (device : Device) (address : ℤ) (registers : List UInt16)
    (log : Log Request Reply) :
    (∃ sent, List.Forall₂ Answered (vectorSteps address registers) sent ∧
      (RTUSlave.writeMultipleRegistersVector device address registers).run log =
        .ok () (log ++ sent)) ∨
    (∃ k sent exchange e, k ≤ fullChunks registers ∧
      List.Forall₂ Answered (chunkSteps k 0 address registers) sent ∧ ¬ Acknowledged exchange ∧
      (RTUSlave.writeMultipleRegistersVector device address registers).run log =
        .error e (log ++ (sent ++ [exchange]))) := by
  rw [writeMultipleRegistersVector_eq]
  rcases runAll_cases device (vectorSteps address registers) log with
    hall | ⟨before, step, after, sent, exchange, hsteps, hsent, hrefused, hrun⟩
  · exact .inl hall
  · have hmem : step ∈ vectorSteps address registers := by
      rw [hsteps]
      simp
    obtain ⟨short, same⟩ := vectorSteps_before hsteps
    rw [same] at hsent
    exact .inr ⟨before.length, sent, exchange, _, short, hsent,
      (vectorSteps_checked address registers step hmem).refused hrefused, hrun⟩

/-- How many elements the acknowledged requests carried. -/
def writtenCount (registers : List UInt16) (sent : Log Request Reply) : ℕ :=
  modbusMaxWriteRegisters * (sent.take (fullChunks registers)).countP (fun e => Acknowledged e) +
    if (sent[fullChunks registers]?).any (fun e => Acknowledged e) then
      registers.length % modbusMaxWriteRegisters
    else 0

/-- What an interrupted transfer is worth: of the registers from `address` on, exactly as
    many as were acknowledged hold the first elements, and nothing else has changed. These
    are all of them when it returns. -/
structure LeavesPrefix (device : Device) (address : ℤ) (registers : List UInt16)
    (log sent : Log Request Reply) : Prop where
  ran : finalLog (RTUSlave.writeMultipleRegistersVector device address registers) log = log ++ sent
  inside : ∀ (memory : ℤ → UInt16) (i : ℕ), i < writtenCount registers sent →
    registers[i]? = some (registersAfter memory sent (address + i))
  outside : ∀ (memory : ℤ → UInt16) (a : ℤ),
    a < address ∨ address + writtenCount registers sent ≤ a → registersAfter memory sent a = memory a
  stops : ∀ before exchange after, sent = before ++ exchange :: after →
    ¬ Acknowledged exchange → after = []
  throws : (∃ e log', (RTUSlave.writeMultipleRegistersVector device address registers).run log =
    .error e log') ↔ ∃ exchange ∈ sent, ¬ Acknowledged exchange
  whole : (∃ log', (RTUSlave.writeMultipleRegistersVector device address registers).run log =
    .ok () log') → writtenCount registers sent = registers.length
  wire : 0 ≤ address → address + registers.length ≤ 2^16 → ∀ (memory : ℤ → UInt16) (n : ℕ),
    memoryAfter (fun k => memory k) sent n = registersAfter memory sent n

theorem countP_acknowledged {log : Log Request Reply} (h : ∀ exchange ∈ log, Acknowledged exchange) :
    log.countP (fun e => Acknowledged e) = log.length :=
  List.countP_eq_length.mpr fun exchange hmem => decide_eq_true (h exchange hmem)

theorem vectorSteps_acknowledged {address : ℤ} {registers : List UInt16} {sent : Log Request Reply}
    (h : List.Forall₂ Answered (vectorSteps address registers) sent) :
    ∀ exchange ∈ sent, Acknowledged exchange :=
  answered_good h (vectorSteps_checked address registers)

theorem chunkSteps_acknowledged {k chunk : ℕ} {address : ℤ} {registers : List UInt16}
    {sent : Log Request Reply}
    (h : List.Forall₂ Answered (chunkSteps k chunk address registers) sent) :
    ∀ exchange ∈ sent, Acknowledged exchange :=
  answered_good h (chunkSteps_all chunkStep_checked k chunk address registers)

theorem writtenCount_all {address : ℤ} {registers : List UInt16} {sent : Log Request Reply}
    (h : List.Forall₂ Answered (vectorSteps address registers) sent) :
    writtenCount registers sent = registers.length := by
  have acknowledged := vectorSteps_acknowledged h
  have length : sent.length = fullChunks registers + 1 := by
    rw [← h.length_eq, vectorSteps, List.length_append, chunkSteps_length]
    rfl
  have last : fullChunks registers < sent.length := by omega
  have count : (sent.take (fullChunks registers)).countP (fun e => Acknowledged e) =
      fullChunks registers := by
    rw [countP_acknowledged fun e he => acknowledged e (List.mem_of_mem_take he), List.length_take,
      Nat.min_eq_left (Nat.le_of_lt last)]
  rw [writtenCount, count, List.getElem?_eq_getElem last, Option.any_some,
    if_pos (decide_eq_true (acknowledged _ (List.getElem_mem last)))]
  exact Nat.div_add_mod registers.length modbusMaxWriteRegisters

theorem writtenCount_stopped {address : ℤ} {registers : List UInt16} {sent : Log Request Reply}
    {k : ℕ} {exchange : Request × Reply} (hk : k ≤ fullChunks registers)
    (h : List.Forall₂ Answered (chunkSteps k 0 address registers) sent)
    (hfailed : ¬ Acknowledged exchange) :
    writtenCount registers (sent ++ [exchange]) = modbusMaxWriteRegisters * k := by
  have length : sent.length = k := by rw [← h.length_eq, chunkSteps_length]
  have all : sent.countP (fun e => Acknowledged e) = k := by
    rw [countP_acknowledged (chunkSteps_acknowledged h), length]
  unfold writtenCount
  rcases Nat.lt_or_eq_of_le hk with hlt | rfl
  · have whole : (sent ++ [exchange]).take (fullChunks registers) = sent ++ [exchange] :=
      List.take_of_length_le (by simp [length]; omega)
    have none : (sent ++ [exchange])[fullChunks registers]? = none :=
      List.getElem?_eq_none (by simp [length]; omega)
    rw [whole, none, List.countP_append, all]
    simp [hfailed]
  · have last : (sent ++ [exchange])[fullChunks registers]? = some exchange := by
      rw [← length, List.getElem?_concat_length]
    rw [List.take_left' length, all, last]
    simp [hfailed]

theorem prefix_inside {memory : ℤ → UInt16} {address : ℤ} {registers : List UInt16} {m i : ℕ}
    (hi : i < m) (hm : m ≤ registers.length) :
    registers[i]? = some (storeAt memory address (registers.take m) (address + i)) := by
  have short : i < (registers.take m).length := by
    rwa [List.length_take_of_le hm]
  rw [storeAt_inside _ _ _ _ short, List.getElem_take, List.getElem?_eq_getElem (by omega)]

theorem prefix_outside {memory : ℤ → UInt16} {address a : ℤ} {registers : List UInt16} {m : ℕ}
    (hm : m ≤ registers.length) (h : a < address ∨ address + m ≤ a) :
    storeAt memory address (registers.take m) a = memory a := by
  rw [storeAt_outside]
  rwa [List.length_take_of_le hm]

/-- The low 16 bits of the address are the address. -/
def OnWire : Request → Prop
  | .writeRegister address _ => 0 ≤ address ∧ address < 2^16
  | .writeRegisters address _ src => src = [] ∨ (0 ≤ address ∧ address < 2^16)
  | _ => True

theorem applyRequest_natCast (memory : ℤ → UInt16) {request : Request} (h : OnWire request) :
    applyRequest (fun k => memory k) request = fun k : ℕ => applyAt memory request k := by
  funext n
  cases request with
  | writeRegister address value =>
    change store (fun k : ℕ => memory k) (wireAddress address) [value] n =
      storeAt memory address [value] n
    rw [storeAt_natCast memory h.1, wireAddress_eq h.1 h.2]
  | writeRegisters address nb src =>
    change store (fun k : ℕ => memory k) (wireAddress address) src n =
      storeAt memory address src n
    rcases h with rfl | ⟨hlo, hhi⟩
    · rw [store_nil, storeAt_nil]
    · rw [storeAt_natCast memory hlo, wireAddress_eq hlo hhi]
  | _ => rfl

theorem memoryAfter_natCast {log : Log Request Reply}
    (h : ∀ exchange ∈ log, Acknowledged exchange → OnWire exchange.1) (memory : ℤ → UInt16)
    (n : ℕ) : memoryAfter (fun k => memory k) log n = registersAfter memory log n := by
  induction log generalizing memory with
  | nil => rfl
  | cons exchange log ih =>
    have tail := ih (fun e he => h e (by simp [he]))
    rw [← List.singleton_append, memoryAfter_append, registersAfter_append, ← tail]
    by_cases hack : Acknowledged exchange
    · have head := applyRequest_natCast memory (h exchange (by simp) hack)
      change memoryAfter (if Acknowledged exchange then _ else _) log n =
        memoryAfter (fun k : ℕ => (if Acknowledged exchange then _ else _ : ℤ → UInt16) k) log n
      rw [if_pos hack, if_pos hack, head]
    · change memoryAfter (if Acknowledged exchange then _ else _) log n =
        memoryAfter (fun k : ℕ => (if Acknowledged exchange then _ else _ : ℤ → UInt16) k) log n
      rw [if_neg hack, if_neg hack]

theorem chunkSteps_onWire (left chunk : ℕ) (address : ℤ) (regs : List UInt16) (hlo : 0 ≤ address)
    (hhi : address + (modbusMaxWriteRegisters * left : ℕ) ≤ 2^16) :
    ∀ step ∈ chunkSteps left chunk address regs, OnWire step.request := by
  induction left generalizing chunk address regs with
  | zero => intro step h; cases h
  | succ left ih =>
    have size : (modbusMaxWriteRegisters : ℤ) = 123 := rfl
    rw [Nat.mul_succ, Int.natCast_add] at hhi
    intro step h
    rcases List.mem_cons.mp h with rfl | htail
    · exact .inr ⟨hlo, by omega⟩
    · exact ih _ _ _ (by omega) (by omega) step htail

theorem vectorSteps_onWire (address : ℤ) (registers : List UInt16) (hlo : 0 ≤ address)
    (hhi : address + registers.length ≤ 2^16) :
    ∀ step ∈ vectorSteps address registers, OnWire step.request := by
  have hdiv := Nat.div_add_mod registers.length modbusMaxWriteRegisters
  intro step hstep
  rcases List.mem_append.mp hstep with hmem | hmem
  · exact chunkSteps_onWire _ _ _ _ hlo (by omega) step hmem
  · rw [List.mem_singleton.mp hmem]
    by_cases hzero : registers.length % modbusMaxWriteRegisters = 0
    · refine .inl ?_
      rw [hzero, List.take_zero]
    · exact .inr ⟨by omega, by omega⟩

theorem leavesPrefix_all {device : Device} {address : ℤ} {registers : List UInt16}
    {log sent : Log Request Reply}
    (hsent : List.Forall₂ Answered (vectorSteps address registers) sent)
    (hrun : (RTUSlave.writeMultipleRegistersVector device address registers).run log =
      .ok () (log ++ sent)) : LeavesPrefix device address registers log sent := by
  have acknowledged := vectorSteps_acknowledged hsent
  have count := writtenCount_all hsent
  have after (memory : ℤ → UInt16) : registersAfter memory sent =
      storeAt memory address (registers.take (writtenCount registers sent)) := by
    rw [count, List.take_length]
    exact vectorSteps_registers address registers memory sent hsent
  refine ⟨by rw [finalLog, hrun], fun memory i hi => ?_, fun memory a ha => ?_, ?_, ?_,
    fun _ => count, ?_⟩
  · rw [after]
    exact prefix_inside hi (Nat.le_of_eq count)
  · rw [after]
    exact prefix_outside (Nat.le_of_eq count) ha
  · rintro before exchange rest rfl hfailed
    exact absurd (acknowledged exchange (by simp)) hfailed
  · constructor
    · rintro ⟨e, log', herror⟩
      rw [hrun] at herror
      cases herror
    · rintro ⟨exchange, hmem, hfailed⟩
      exact absurd (acknowledged exchange hmem) hfailed
  · intro hlo hhi memory n
    have onWire := answered_forall hsent (vectorSteps_onWire address registers hlo hhi)
    exact memoryAfter_natCast (fun exchange hmem _ => onWire exchange hmem) memory n

theorem leavesPrefix_stopped {device : Device} {address : ℤ} {registers : List UInt16}
    {log sent : Log Request Reply} {k : ℕ} {exchange : Request × Reply} {e : Exception}
    (hk : k ≤ fullChunks registers)
    (hsent : List.Forall₂ Answered (chunkSteps k 0 address registers) sent)
    (hfailed : ¬ Acknowledged exchange)
    (hrun : (RTUSlave.writeMultipleRegistersVector device address registers).run log =
      .error e (log ++ (sent ++ [exchange]))) :
    LeavesPrefix device address registers log (sent ++ [exchange]) := by
  have acknowledged := chunkSteps_acknowledged hsent
  have count := writtenCount_stopped hk hsent hfailed
  have fits : modbusMaxWriteRegisters * k ≤ registers.length :=
    Nat.le_trans (Nat.mul_le_mul_left _ hk) (fullChunks_le registers)
  have after (memory : ℤ → UInt16) : registersAfter memory (sent ++ [exchange]) =
      storeAt memory address (registers.take (modbusMaxWriteRegisters * k)) := by
    rw [registersAfter_append, registersAfter_failed _ hfailed]
    exact chunkSteps_registers k 0 address registers memory sent hsent fits
  refine ⟨by rw [finalLog, hrun], fun memory i hi => ?_, fun memory a ha => ?_, ?_, ?_, ?_, ?_⟩
  · rw [count] at hi
    rw [after]
    exact prefix_inside hi fits
  · rw [count] at ha
    rw [after]
    exact prefix_outside fits ha
  · intro before bad rest hsplit hbad
    rcases List.eq_nil_or_concat rest with rfl | ⟨rest', last, rfl⟩
    · rfl
    · rw [List.concat_eq_append, ← List.cons_append, ← List.append_assoc] at hsplit
      have same := (List.append_inj' hsplit rfl).1
      exact absurd (acknowledged bad (by rw [same]; simp)) hbad
  · exact ⟨fun _ => ⟨exchange, by simp, hfailed⟩, fun _ => ⟨e, _, hrun⟩⟩
  · rintro ⟨log', hreturned⟩
    rw [hrun] at hreturned
    cases hreturned
  · intro hlo hhi memory n
    have onWire := answered_forall hsent (chunkSteps_onWire k 0 address registers hlo (by omega))
    refine memoryAfter_natCast (fun bad hmem hack => ?_) memory n
    rcases List.mem_append.mp hmem with hold | hnew
    · exact onWire bad hold
    · rw [List.mem_singleton.mp hnew] at hack
      exact absurd hack hfailed

/-- Whatever fails and wherever, a transfer leaves a prefix behind. -/
theorem transfer_leaves_prefix (device : Device) (address : ℤ) (registers : List UInt16)
    (log : Log Request Reply) : ∃ sent, LeavesPrefix device address registers log sent := by
  rcases vector_cases device address registers log with
    ⟨sent, hsent, hrun⟩ | ⟨k, sent, exchange, e, hk, hsent, hfailed, hrun⟩
  · exact ⟨sent, leavesPrefix_all hsent hrun⟩
  · exact ⟨sent ++ [exchange], leavesPrefix_stopped hk hsent hfailed hrun⟩

/-! Where the elements go on the wire. -/

/-- The addresses that a request names for its elements. -/
def elements : Request → List ℤ
  | .writeRegister address _ => [address]
  | .writeRegisters address _ src => (List.range src.length).map (fun (j : ℕ) => address + j)
  | _ => []

/-- The register addresses of the elements that a log carries, in 16 bits. -/
def wireElements (log : Log Request Reply) : List ℕ :=
  (log.flatMap (fun exchange => elements exchange.1)).map wireAddress

structure PlacedExactly (address : ℤ) (sent : Log Request Reply) : Prop where
  exact : ∀ (i w : ℕ), (wireElements sent)[i]? = some w → (w : ℤ) = address + i
  distinct : (wireElements sent).Nodup
  notBelow : ∀ w ∈ wireElements sent, address ≤ w

def NeverMisplaces (files : Files) (filename : String) (address : ℤ) : Prop :=
  ∀ bus rp log sent, finalLog (fileTransfer bus files rp address filename) log = log ++ sent →
    PlacedExactly address sent

def span (address : ℤ) (n : ℕ) : List ℤ := (List.range n).map (fun (i : ℕ) => address + i)

theorem span_add (address : ℤ) (m n : ℕ) :
    span address (m + n) = span address m ++ span (address + m) n := by
  unfold span
  rw [List.range_add, List.map_append, List.map_map]
  congr 1
  refine List.map_congr_left fun i _ => ?_
  simp only [Function.comp_apply]
  omega

theorem chunkSteps_elements (left chunk : ℕ) (address : ℤ) (regs : List UInt16)
    (hlen : modbusMaxWriteRegisters * left ≤ regs.length) :
    (chunkSteps left chunk address regs).flatMap (fun step => elements step.request) =
      span address (modbusMaxWriteRegisters * left) := by
  induction left generalizing chunk address regs with
  | zero => rfl
  | succ left ih =>
    rw [Nat.mul_succ] at hlen ⊢
    have head : elements (chunkStep chunk address regs).request =
        span address modbusMaxWriteRegisters := by
      change (List.range (regs.take _).length).map _ = _
      rw [List.length_take_of_le (by omega)]
      rfl
    have tail := ih (chunk + 1) (address + modbusMaxWriteRegisters)
      (regs.drop modbusMaxWriteRegisters) (by rw [List.length_drop]; omega)
    rw [chunkSteps, List.flatMap_cons, head, tail, Nat.add_comm, span_add]

theorem vectorSteps_elements (address : ℤ) (registers : List UInt16) :
    (vectorSteps address registers).flatMap (fun step => elements step.request) =
      span address registers.length := by
  have hdiv := Nat.div_add_mod registers.length modbusMaxWriteRegisters
  have chunks := chunkSteps_elements (registers.length / modbusMaxWriteRegisters) 0 address
    registers (by omega)
  rw [vectorSteps]
  generalize hsize : modbusMaxWriteRegisters * (registers.length / modbusMaxWriteRegisters) = size
    at chunks hdiv
  have last : elements (remainingStep (address + size) (registers.drop size)
      (registers.length % modbusMaxWriteRegisters)).request =
        span (address + size) (registers.length % modbusMaxWriteRegisters) := by
    change (List.range (List.take _ (registers.drop size)).length).map _ = _
    rw [take_remaining hdiv, List.length_drop, Nat.sub_eq_of_eq_add' hdiv.symm]
    rfl
  rw [List.flatMap_append, chunks, List.flatMap_singleton, last, ← span_add, hdiv]

theorem wireElements_requests {steps : List (Step Request Reply Exception)}
    {sent : Log Request Reply} (h : sent.map Prod.fst <+: steps.map Step.request) :
    wireElements sent <+: (steps.flatMap (fun step => elements step.request)).map wireAddress := by
  obtain ⟨rest, hrest⟩ := h
  have whole : steps.flatMap (fun step => elements step.request) =
      (steps.map Step.request).flatMap elements := by rw [List.flatMap_map]
  refine ⟨(rest.flatMap elements).map wireAddress, ?_⟩
  rw [whole, ← hrest, List.flatMap_append, List.map_append, List.flatMap_map]
  rfl

/-- Whatever the device answers, the elements go out in order from the start address on. -/
theorem vector_elements (device : Device) (address : ℤ) (registers : List UInt16)
    (log : Log Request Reply) : ∃ sent,
      finalLog (RTUSlave.writeMultipleRegistersVector device address registers) log = log ++ sent ∧
      wireElements sent <+: (span address registers.length).map wireAddress := by
  rw [writeMultipleRegistersVector_eq, ← vectorSteps_elements]
  rcases runAll_checked device (vectorSteps address registers) log Acknowledged
    (vectorSteps_checked address registers) with ⟨sent, hrun, hreq, _⟩ | ⟨e, sent, bad, hrun, hreq, _⟩
  · exact ⟨sent, by rw [finalLog, hrun], wireElements_requests (hreq ▸ List.prefix_rfl)⟩
  · exact ⟨sent ++ [bad], by rw [finalLog, hrun], wireElements_requests hreq⟩

theorem wireAddress_exact {address : ℤ} : (wireAddress address : ℤ) = address ↔
    0 ≤ address ∧ address < 2^16 := by
  unfold wireAddress
  omega

theorem span_get {address : ℤ} {n i w : ℕ} (h : ((span address n).map wireAddress)[i]? = some w) :
    i < n ∧ w = wireAddress (address + i) := by
  simp only [span, List.map_map, List.getElem?_map, Option.map_eq_some_iff] at h
  obtain ⟨k, hk, rfl⟩ := h
  obtain ⟨hi, rfl⟩ := List.getElem?_eq_some_iff.mp hk
  rw [List.length_range] at hi
  refine ⟨hi, ?_⟩
  rw [List.getElem_range]
  rfl

theorem placedExactly_of_prefix {address : ℤ} {n : ℕ} {sent : Log Request Reply}
    (h : wireElements sent <+: (span address n).map wireAddress)
    (hrange : n = 0 ∨ (0 ≤ address ∧ address + n ≤ 2^16)) : PlacedExactly address sent := by
  have exact (i w : ℕ) (hw : (wireElements sent)[i]? = some w) : (w : ℤ) = address + i := by
    have inside : i < (wireElements sent).length := (List.getElem?_eq_some_iff.mp hw).1
    obtain ⟨rest, hrest⟩ := h
    have whole : ((span address n).map wireAddress)[i]? = some w := by
      rw [← hrest, List.getElem?_append_left inside, hw]
    obtain ⟨hi, rfl⟩ := span_get whole
    rw [wireAddress_exact]
    omega
  refine ⟨exact, ?_, ?_⟩
  · rw [List.nodup_iff_getElem?_ne_getElem?]
    intro i j hij hj hsame
    have second := List.getElem?_eq_getElem hj
    have first := hsame.trans second
    have := exact i _ first
    have := exact j _ second
    omega
  · intro w hw
    obtain ⟨i, hi⟩ := List.mem_iff_getElem?.mp hw
    have := exact i w hi
    omega

/-- A device that takes every write of at most a full chunk, empty ones included. -/
def willingDevice : Device := fun _ request =>
  match request with
  | .readInputRegisters _ nb | .readRegisters _ nb =>
    ⟨Int32.ofInt nb, List.replicate nb.toNat 0, ""⟩
  | .writeRegister _ _ => ⟨1, [], ""⟩
  | .writeRegisters _ nb _ => ⟨Int32.ofInt nb, [], ""⟩

def willingBus : Bus := { FlashRuns.plainBus with device := fun _ _ _ => willingDevice }

theorem willingDevice_accepts (address : ℤ) (registers : List UInt16) :
    ∀ step ∈ vectorSteps address registers, ∀ log,
      step.accepts (willingDevice log step.request) = true := by
  have small := remaining_lt registers
  refine vectorSteps_all (P := fun step => ∀ log,
    step.accepts (willingDevice log step.request) = true) registers ?_ ?_ address
  · intro chunk address regs log
    refine (chunkStep_checked chunk address regs _).mpr ?_
    exact Int32.toInt_ofInt_of_le (by decide) (by decide)
  · intro address regs log
    refine (remainingStep_checked address regs small _).mpr ?_
    exact Int32.toInt_ofInt_of_le (by omega) (by omega)

/-- A full chunk and one more register. -/
theorem transfer_leaves_prefix_chunk :
    ∃ sent, LeavesPrefix willingDevice 40 (List.replicate 124 7) [] sent ∧
      writtenCount (List.replicate 124 7) sent = 124 := by
  obtain ⟨sent, leaves⟩ := transfer_leaves_prefix willingDevice 40 (List.replicate 124 7) []
  obtain ⟨_, _, hrun⟩ := runAll_accepted willingDevice (vectorSteps 40 (List.replicate 124 7)) []
    (willingDevice_accepts 40 (List.replicate 124 7))
  rw [← writeMultipleRegistersVector_eq] at hrun
  exact ⟨sent, leaves, (leaves.whole ⟨_, hrun⟩).trans List.length_replicate⟩

theorem placedExactly_range {address : ℤ} {n : ℕ} {sent : Log Request Reply} (hpos : n ≠ 0)
    (hwhole : wireElements sent = (span address n).map wireAddress)
    (h : PlacedExactly address sent) : 0 ≤ address ∧ address + n ≤ 2^16 := by
  have placed (i : ℕ) (hi : i < n) : (wireAddress (address + i) : ℤ) = address + i := by
    apply h.exact i
    rw [hwhole]
    simp [span, hi]
  have first := wireAddress_exact.mp (placed 0 (by omega))
  have last := wireAddress_exact.mp (placed (n - 1) (by omega))
  omega

theorem fileTransfer_elements {files : Files} {filename : String} {content : List UInt16 × UInt32}
    (hfile : registersFromFile files filename = .ok content) (bus : Bus) (rp : RtuParameters)
    (address : ℤ) (log : Log Request Reply) : ∃ sent,
      finalLog (fileTransfer bus files rp address filename) log = log ++ sent ∧
      wireElements sent <+: (span address content.1.length).map wireAddress := by
  cases hopen : openSlave bus rp with
  | ok device =>
    obtain ⟨sent, hsent, hfront⟩ := vector_elements device address content.1 log
    refine ⟨sent, ?_, hfront⟩
    rw [← hsent, finalLog, finalLog, fileTransfer_run hfile hopen]
  | error e =>
    have refused : (fileTransfer bus files rp address filename).run log = .error e log := by
      unfold fileTransfer
      rw [hfile, hopen]
      rfl
    exact ⟨[], by rw [finalLog, refused, List.append_nil], List.nil_prefix⟩

theorem willing_elements {files : Files} {filename : String} {content : List UInt16 × UInt32}
    (hfile : registersFromFile files filename = .ok content) (address : ℤ) : ∃ sent,
      finalLog (fileTransfer willingBus files FlashRuns.plainRtu address filename) [] =
        [] ++ sent ∧ wireElements sent = (span address content.1.length).map wireAddress := by
  obtain ⟨sent, hsent, hrun⟩ := runAll_accepted willingDevice
    (vectorSteps address content.1) [] (willingDevice_accepts address content.1)
  have hopen : openSlave willingBus FlashRuns.plainRtu = .ok willingDevice := rfl
  refine ⟨sent, ?_, ?_⟩
  · rw [finalLog, fileTransfer_run hfile hopen, writeMultipleRegistersVector_eq, hrun]
  · rw [wireElements, ← vectorSteps_elements, ← List.flatMap_map, answered_requests hsent,
      List.flatMap_map]

/-- The transfer of `n` registers is placed exactly, whatever is on the line, as long as they
    end below register 65536; nothing in the code checks that. -/
theorem neverMisplaces_iff_range {files : Files} {filename : String}
    {content : List UInt16 × UInt32} (hfile : registersFromFile files filename = .ok content)
    (address : ℤ) : NeverMisplaces files filename address ↔
      content.1.length = 0 ∨ (0 ≤ address ∧ address + content.1.length ≤ 2^16) := by
  constructor
  · intro h
    by_cases hzero : content.1.length = 0
    · exact .inl hzero
    · obtain ⟨sent, hsent, hwhole⟩ := willing_elements hfile address
      exact .inr (placedExactly_range hzero hwhole (h willingBus FlashRuns.plainRtu [] sent hsent))
  · intro hrange bus rp log sent hsent
    obtain ⟨sent', hsent', hfront⟩ := fileTransfer_elements hfile bus rp address log
    rw [hsent'] at hsent
    rw [← List.append_cancel_left hsent]
    exact placedExactly_of_prefix hfront hrange

/-- In terms of the bytes of the file: two registers for every four of them, or fewer. -/
theorem fileTransfer_placed_iff {files : Files} {filename : String} {bytes : List UInt8}
    (hfile : files filename = some bytes) (address : ℤ) : NeverMisplaces files filename address ↔
      bytes = [] ∨ (0 ≤ address ∧ address + 2 * ((bytes.length + 3) / 4 : ℕ) ≤ 2^16) := by
  obtain ⟨content, hread, hexpand, _⟩ := FilePacking.registersFromFile_ok hfile
  have length : content.length = 2 * ((bytes.length + 3) / 4) := by
    have := congrArg List.length hexpand
    rw [FilePacking.expand_length, FilePacking.padded_length] at this
    omega
  have empty : content.length = 0 ↔ bytes = [] := by
    rw [← List.length_eq_zero_iff, length]
    omega
  rw [neverMisplaces_iff_range hread, empty, length, Int.natCast_mul]
  rfl

theorem fileTransfer_placed_five :
    NeverMisplaces (FlashRuns.sameFile [1, 2, 3, 4, 5]) "image.bin" 65532 := by
  have hfile : FlashRuns.sameFile [1, 2, 3, 4, 5] "image.bin" = some [1, 2, 3, 4, 5] := rfl
  exact (fileTransfer_placed_iff hfile 65532).mpr (.inr ⟨by decide, by decide⟩)

/-- One full chunk ends at register 65535, and the element after it goes to register 0. -/
theorem fileTransfer_wraps :
    (∃ sent, finalLog (fileTransfer willingBus (FlashRuns.sameFile (List.replicate 248 7))
        FlashRuns.plainRtu 65413 "image.bin") [] = sent ∧ (wireElements sent)[123]? = some 0) ∧
      ¬ NeverMisplaces (FlashRuns.sameFile (List.replicate 248 7)) "image.bin" 65413 := by
  have hfile : FlashRuns.sameFile (List.replicate 248 7) "image.bin" =
    some (List.replicate 248 7) := rfl
  obtain ⟨content, hread, hexpand, _⟩ := FilePacking.registersFromFile_ok hfile
  have length : content.length = 124 := by
    have := congrArg List.length hexpand
    rw [FilePacking.expand_length, FilePacking.padded_length, List.length_replicate] at this
    omega
  refine ⟨?_, ?_⟩
  · obtain ⟨sent, hsent, hwhole⟩ := willing_elements hread 65413
    refine ⟨sent, hsent, ?_⟩
    rw [hwhole, length]
    decide
  · rw [neverMisplaces_iff_range hread, length]
    decide

end ModbusCrawler.TransferEffects
