import ModbusCrawler.BlockMemory
import ModbusCrawler.FilePacking

set_option autoImplicit false

/-!
# Writing a vector in chunks

`writeMultipleRegistersVector` as one list of steps, and what its requests do to
the registers of a device.
-/
namespace ModbusCrawler.FileTransfer
open BlockMemory FailStop ModbusTypes ModbusSlave ModbusOps

/-- The return value every call reports when all its registers went through. -/
def Acknowledged (exchange : Request × Reply) : Prop :=
  match exchange.1 with
  | .readInputRegisters _ nb | .readRegisters _ nb => exchange.2.apiRv.toInt = nb
  | .writeRegister _ _ => exchange.2.apiRv.toInt = 1
  | .writeRegisters _ nb _ => exchange.2.apiRv.toInt = nb

instance (exchange : Request × Reply) : Decidable (Acknowledged exchange) := by
  unfold Acknowledged
  split <;> infer_instance

def WellFormed : Request → Prop
  | .readInputRegisters _ nb | .readRegisters _ nb => 1 ≤ nb ∧ nb ≤ modbusMaxReadRegisters
  | .writeRegister _ _ => True
  | .writeRegisters _ nb _ => 1 ≤ nb ∧ nb ≤ modbusMaxWriteRegisters

/-- A device that acknowledges what is well formed and rejects empty writes. -/
structure Conforming (device : Device) : Prop where
  acknowledges : ∀ log request, WellFormed request → Acknowledged (request, device log request)
  rejects : ∀ log address src, (device log (.writeRegisters address 0 src)).apiRv.toInt = -1

def plainDevice : Device := fun _ request =>
  match request with
  | .readInputRegisters _ nb | .readRegisters _ nb =>
    ⟨Int32.ofInt nb, List.replicate nb.toNat 0, ""⟩
  | .writeRegister _ _ => ⟨1, [], ""⟩
  | .writeRegisters _ nb _ => ⟨if 1 ≤ nb then Int32.ofInt nb else -1, [], ""⟩

theorem plainDevice_conforming : Conforming plainDevice := by
  constructor
  · intro log request h
    have exact (nb : ℤ) (hlo : 1 ≤ nb) (hhi : nb ≤ 125) : (Int32.ofInt nb).toInt = nb :=
      Int32.toInt_ofInt_of_le (by omega) (by omega)
    cases request with
    | readInputRegisters _ nb => exact exact nb h.1 h.2
    | readRegisters _ nb => exact exact nb h.1 h.2
    | writeRegister _ _ => rfl
    | writeRegisters _ nb _ =>
      change (if 1 ≤ nb then Int32.ofInt nb else -1).toInt = nb
      rw [if_pos h.1]
      exact exact nb h.1 (h.2.trans (by decide))
  · intro log address src
    rfl

def wireAddress (address : ℤ) : ℕ := (address % 2^16).toNat

def applyRequest (memory : ℕ → UInt16) : Request → ℕ → UInt16
  | .writeRegister address value => store memory (wireAddress address) [value]
  | .writeRegisters address _ src => store memory (wireAddress address) src
  | _ => memory

/-- The registers after a log: a request that fails changes none. -/
def memoryAfter (memory : ℕ → UInt16) (log : Log Request Reply) : ℕ → UInt16 :=
  log.foldl (fun memory exchange =>
    if Acknowledged exchange then applyRequest memory exchange.1 else memory) memory

def chunkStep (chunk : ℕ) (address : ℤ) (regs : List UInt16) : Step Request Reply Exception where
  request := .writeRegisters address modbusMaxWriteRegisters (regs.take modbusMaxWriteRegisters)
  accepts reply := reply.apiRv.toInt = modbusMaxWriteRegisters
  failure reply := .runtimeError ("Failed modbus_write_registers chunk #" ++ toString chunk ++
    ": " ++ reply.strerror)

def remainingStep (address : ℤ) (regs : List UInt16) (remaining : ℕ) :
    Step Request Reply Exception where
  request := .writeRegisters address remaining (regs.take remaining)
  accepts reply := toSizeT reply.apiRv.toInt = remaining
  failure reply := .runtimeError ("Failed modbus_write_registers remaining: " ++ reply.strerror)

def chunkSteps : (left chunk : ℕ) → ℤ → List UInt16 → List (Step Request Reply Exception)
  | 0, _, _, _ => []
  | left + 1, chunk, address, regs => chunkStep chunk address regs ::
    chunkSteps left (chunk + 1) (address + modbusMaxWriteRegisters)
      (regs.drop modbusMaxWriteRegisters)

def vectorSteps (address : ℤ) (registers : List UInt16) : List (Step Request Reply Exception) :=
  let sent := modbusMaxWriteRegisters * (registers.length / modbusMaxWriteRegisters)
  chunkSteps (registers.length / modbusMaxWriteRegisters) 0 address registers ++
    [remainingStep (address + sent) (registers.drop sent)
      (registers.length % modbusMaxWriteRegisters)]

theorem writeChunks_eq (device : Device) (left chunk : ℕ) (address : ℤ) (regs : List UInt16) :
    RTUSlave.writeChunks device left chunk address regs = (do
      runAll device (chunkSteps left chunk address regs)
      pure (address + (modbusMaxWriteRegisters * left : ℕ),
        regs.drop (modbusMaxWriteRegisters * left))) := by
  induction left generalizing chunk address regs with
  | zero => simp [RTUSlave.writeChunks, chunkSteps, runAll]
  | succ left ih =>
    have hdrop : (regs.drop modbusMaxWriteRegisters).drop (modbusMaxWriteRegisters * left) =
        regs.drop (modbusMaxWriteRegisters * (left + 1)) := by
      rw [List.drop_drop, Nat.mul_succ, Nat.add_comm]
    have haddress : address + modbusMaxWriteRegisters + (modbusMaxWriteRegisters * left : ℕ) =
        address + (modbusMaxWriteRegisters * (left + 1) : ℕ) := by
      rw [Nat.mul_succ]
      push_cast
      omega
    rw [RTUSlave.writeChunks, chunkSteps, runAll, Step.run]
    simp only [ih, bind_assoc, hdrop, haddress]
    congr 1
    funext reply
    by_cases h : reply.apiRv.toInt = modbusMaxWriteRegisters
    · simp [chunkStep, h]
    · simp only [chunkStep, h, ne_eq, not_false_eq_true, if_true, decide_false]
      rfl

theorem writeMultipleRegistersVector_eq (device : Device) (address : ℤ)
    (registers : List UInt16) :
    RTUSlave.writeMultipleRegistersVector device address registers =
      runAll device (vectorSteps address registers) := by
  unfold RTUSlave.writeMultipleRegistersVector vectorSteps
  dsimp only
  rw [writeChunks_eq, runAll_append, runAll_singleton, bind_assoc]
  congr 1
  funext _
  rw [pure_bind]
  unfold Step.run
  congr 1
  funext reply
  by_cases h : toSizeT reply.apiRv.toInt = (registers.length % modbusMaxWriteRegisters : ℕ) <;>
    simp [remainingStep, h]

theorem toSizeT_eq_iff (rv : Int32) (n : ℕ) (h : n < 2^31) : toSizeT rv.toInt = n ↔ rv.toInt = n := by
  have low := rv.le_toInt
  have high := rv.toInt_lt
  unfold toSizeT
  omega

theorem remaining_lt (registers : List UInt16) :
    registers.length % modbusMaxWriteRegisters < 2^31 := by
  unfold modbusMaxWriteRegisters
  omega

def Checked (step : Step Request Reply Exception) : Prop :=
  ∀ reply, step.accepts reply = true ↔ Acknowledged (step.request, reply)

theorem holdingStep_checked (address : ℤ) (value : UInt16) : Checked (holdingStep address value) :=
  fun _ => decide_eq_true_iff

theorem multipleStep_checked (address : ℤ) (regs : List UInt16) (numRegs : ℕ) :
    Checked (multipleStep address regs numRegs) := fun _ => decide_eq_true_iff

theorem chunkStep_checked (chunk : ℕ) (address : ℤ) (regs : List UInt16) :
    Checked (chunkStep chunk address regs) := fun _ => decide_eq_true_iff

theorem remainingStep_checked (address : ℤ) (regs : List UInt16) {remaining : ℕ}
    (h : remaining < 2^31) : Checked (remainingStep address regs remaining) := by
  intro reply
  exact decide_eq_true_iff.trans (toSizeT_eq_iff reply.apiRv remaining h)

theorem Checked.answered {step : Step Request Reply Exception} (h : Checked step)
    {exchange : Request × Reply} (answered : Answered step exchange) :
    Acknowledged exchange := by
  obtain ⟨request, reply⟩ := exchange
  obtain ⟨rfl, haccepts⟩ := answered
  exact (h reply).mp haccepts

theorem Checked.refused {step : Step Request Reply Exception} (h : Checked step)
    {exchange : Request × Reply} (refused : Refused step exchange) :
    ¬ Acknowledged exchange := by
  obtain ⟨request, reply⟩ := exchange
  obtain ⟨rfl, hrefuses⟩ := refused
  rw [← h reply, hrefuses]
  decide

theorem Checked.accepted {step : Step Request Reply Exception} (h : Checked step)
    {device : Device} (hdevice : Conforming device) (hstep : WellFormed step.request)
    (log : Log Request Reply) : step.accepts (device log step.request) = true :=
  (h _).mpr (hdevice.acknowledges log _ hstep)

theorem wireAddress_eq {address : ℤ} (hlo : 0 ≤ address) (hhi : address < 2^16) :
    wireAddress address = address.toNat := by
  unfold wireAddress
  rw [Int.emod_eq_of_lt hlo hhi]

theorem memoryAfter_append (memory : ℕ → UInt16) (first second : Log Request Reply) :
    memoryAfter memory (first ++ second) = memoryAfter (memoryAfter memory first) second :=
  List.foldl_append

theorem memoryAfter_write (memory : ℕ → UInt16) {exchange : Request × Reply} {address nb : ℤ}
    {src : List UInt16} (hrequest : exchange.1 = .writeRegisters address nb src)
    (hack : Acknowledged exchange) (hlo : 0 ≤ address) (hhi : address < 2^16) :
    memoryAfter memory [exchange] = store memory address.toNat src := by
  change (if Acknowledged exchange then applyRequest memory exchange.1 else memory) = _
  rw [if_pos hack, hrequest, ← wireAddress_eq hlo hhi]
  rfl

theorem chunkSteps_memory (left chunk : ℕ) (address : ℤ) (regs : List UInt16)
    (memory : ℕ → UInt16) (sent : Log Request Reply)
    (h : List.Forall₂ Answered (chunkSteps left chunk address regs) sent)
    (hlen : modbusMaxWriteRegisters * left ≤ regs.length) (hlo : 0 ≤ address)
    (hhi : address + (modbusMaxWriteRegisters * left : ℕ) ≤ 2^16) :
    memoryAfter memory sent =
      store memory address.toNat (regs.take (modbusMaxWriteRegisters * left)) := by
  induction left generalizing chunk address regs memory sent with
  | zero =>
    cases h
    simp [memoryAfter]
  | succ left ih =>
    rw [chunkSteps] at h
    rw [Nat.mul_succ] at hlen hhi ⊢
    have positive : (modbusMaxWriteRegisters : ℤ) = 123 := rfl
    obtain ⟨exchange, sent', hhead, htail, rfl⟩ := List.forall₂_cons_left_iff.mp h
    have first := memoryAfter_write memory hhead.1 ((chunkStep_checked _ _ _).answered hhead) hlo
      (by push_cast at hhi; omega)
    have rest := ih (chunk + 1) (address + modbusMaxWriteRegisters)
      (regs.drop modbusMaxWriteRegisters)
      (store memory address.toNat (regs.take modbusMaxWriteRegisters)) sent' htail
      (by rw [List.length_drop]; omega) (by omega) (by push_cast at hhi ⊢; omega)
    have next : (address + modbusMaxWriteRegisters).toNat =
        address.toNat + (regs.take modbusMaxWriteRegisters).length := by
      rw [List.length_take_of_le (by omega)]
      omega
    rw [← List.singleton_append, memoryAfter_append, first, rest, next, store_append,
      Nat.add_comm, ← List.take_add]

theorem take_remaining {registers : List UInt16} {size remaining : ℕ}
    (h : size + remaining = registers.length) :
    (registers.drop size).take remaining = registers.drop size := by
  apply List.take_of_length_le
  rw [List.length_drop]
  omega

/-- An acknowledged transfer is its full chunks and one request with all that is left. -/
theorem vectorSteps_answered {address : ℤ} {registers : List UInt16} {sent : Log Request Reply}
    (h : List.Forall₂ Answered (vectorSteps address registers) sent) :
    ∃ size chunks exchange, sent = chunks ++ [exchange] ∧
      size = modbusMaxWriteRegisters * (registers.length / modbusMaxWriteRegisters) ∧
      size + registers.length % modbusMaxWriteRegisters = registers.length ∧
      List.Forall₂ Answered
        (chunkSteps (registers.length / modbusMaxWriteRegisters) 0 address registers) chunks ∧
      exchange.1 = .writeRegisters (address + size) (registers.length % modbusMaxWriteRegisters : ℕ)
        (registers.drop size) ∧ Acknowledged exchange := by
  have whole := Nat.div_add_mod registers.length modbusMaxWriteRegisters
  obtain ⟨chunks, last, rfl, hchunks, hlast⟩ := answered_append h
  obtain ⟨exchange, _, hexchange, hnil, rfl⟩ := List.forall₂_cons_left_iff.mp hlast
  cases hnil
  have hack := (remainingStep_checked _ _ (remaining_lt registers)).answered hexchange
  have hrequest := hexchange.1
  rw [remainingStep, take_remaining whole] at hrequest
  exact ⟨_, chunks, exchange, rfl, rfl, whole, hchunks, hrequest, hack⟩

/-- All acknowledged steps of a transfer are the whole vector. -/
theorem vectorSteps_memory (address : ℤ) (registers : List UInt16) (memory : ℕ → UInt16)
    (sent : Log Request Reply) (h : List.Forall₂ Answered (vectorSteps address registers) sent)
    (hlo : 0 ≤ address) (hhi : address + registers.length ≤ 2^16)
    (hremaining : registers.length % modbusMaxWriteRegisters ≠ 0) :
    memoryAfter memory sent = store memory address.toNat registers := by
  obtain ⟨size, chunks, exchange, rfl, hsize, whole, hchunks, hrequest, hack⟩ :=
    vectorSteps_answered h
  have first := chunkSteps_memory _ 0 address registers memory chunks hchunks
    (by omega) hlo (by omega)
  have second := memoryAfter_write (memoryAfter memory chunks) hrequest hack (by omega) (by omega)
  have next : (address + size).toNat = address.toNat + (registers.take size).length := by
    rw [List.length_take_of_le (by omega)]
    omega
  rw [memoryAfter_append, second, first, ← hsize, next, store_append, List.take_append_drop]

/-- What a transfer to registers `address` on is for: it returns, it only sends well
    formed requests, and afterwards exactly those registers hold the vector. -/
structure Delivers (device : Device) (address : ℤ) (registers : List UInt16)
    (log : Log Request Reply) (memory : ℕ → UInt16) (sent : Log Request Reply) : Prop where
  returns : (RTUSlave.writeMultipleRegistersVector device address registers).run log =
    .ok () (log ++ sent)
  wellFormed : ∀ exchange ∈ sent, WellFormed exchange.1
  inside : ∀ i (h : i < registers.length),
    memoryAfter memory sent (address.toNat + i) = registers[i]
  outside : ∀ a, a < address.toNat ∨ address.toNat + registers.length ≤ a →
    memoryAfter memory sent a = memory a

theorem chunkStep_wellFormed (chunk : ℕ) (address : ℤ) (regs : List UInt16) :
    WellFormed (chunkStep chunk address regs).request := by
  refine ⟨?_, le_refl _⟩
  simp [modbusMaxWriteRegisters]

theorem remainingStep_wellFormed (address : ℤ) (regs : List UInt16) {remaining : ℕ}
    (hpos : remaining ≠ 0) (hlt : remaining < modbusMaxWriteRegisters) :
    WellFormed (remainingStep address regs remaining).request := ⟨by omega, by omega⟩

theorem chunkSteps_all {P : Step Request Reply Exception → Prop}
    (hchunk : ∀ chunk address regs, P (chunkStep chunk address regs)) (left chunk : ℕ)
    (address : ℤ) (regs : List UInt16) : ∀ step ∈ chunkSteps left chunk address regs, P step := by
  induction left generalizing chunk address regs with
  | zero => intro step h; cases h
  | succ left ih =>
    intro step h
    rcases List.mem_cons.mp h with rfl | htail
    · exact hchunk _ _ _
    · exact ih _ _ _ step htail

/-- What holds of every chunk and of the remainder holds of every step. -/
theorem vectorSteps_all {P : Step Request Reply Exception → Prop} (registers : List UInt16)
    (hchunk : ∀ chunk address regs, P (chunkStep chunk address regs))
    (hlast : ∀ address regs,
      P (remainingStep address regs (registers.length % modbusMaxWriteRegisters)))
    (address : ℤ) : ∀ step ∈ vectorSteps address registers, P step := by
  intro step hstep
  rcases List.mem_append.mp hstep with hmem | hmem
  · exact chunkSteps_all hchunk _ _ _ _ step hmem
  · rw [List.mem_singleton.mp hmem]
    exact hlast _ _

theorem vectorSteps_wellFormed (address : ℤ) (registers : List UInt16)
    (h : registers.length % modbusMaxWriteRegisters ≠ 0) :
    ∀ step ∈ vectorSteps address registers, WellFormed step.request := by
  have bound : registers.length % modbusMaxWriteRegisters < modbusMaxWriteRegisters :=
    Nat.mod_lt _ (by simp [modbusMaxWriteRegisters])
  exact vectorSteps_all (P := fun step => WellFormed step.request) registers chunkStep_wellFormed
    (fun address regs => remainingStep_wellFormed address regs h bound) address

theorem vectorSteps_checked (address : ℤ) (registers : List UInt16) :
    ∀ step ∈ vectorSteps address registers, Checked step :=
  vectorSteps_all registers chunkStep_checked
    (fun address regs => remainingStep_checked address regs (remaining_lt registers)) address

theorem remainingStep_rejected {device : Device} (hdevice : Conforming device) (address : ℤ)
    (regs : List UInt16) (log : Log Request Reply) :
    (remainingStep address regs 0).accepts
      (device log (remainingStep address regs 0).request) = false := by
  have reject := hdevice.rejects log address (regs.take 0)
  change decide (toSizeT (device log (.writeRegisters address 0 (regs.take 0))).apiRv.toInt =
    (0 : ℕ)) = false
  rw [reject]
  decide

theorem writeMultipleRegistersVector_throws {device : Device} (hdevice : Conforming device)
    (address : ℤ) (registers : List UInt16) (log : Log Request Reply)
    (h : registers.length % modbusMaxWriteRegisters = 0) : ∃ e log',
      (RTUSlave.writeMultipleRegistersVector device address registers).run log =
        .error e log' := by
  rw [writeMultipleRegistersVector_eq, vectorSteps, h]
  exact runAll_throws device _ log (List.mem_append_right _ (List.mem_singleton_self _))
    (remainingStep_rejected hdevice _ _)

/-- After the file is read and the line open, `file_transfer` is the transfer of its registers. -/
theorem fileTransfer_run {bus : Bus} {files : Files} {rp : RtuParameters} {filename : String}
    {device : Device} {content : List UInt16 × UInt32}
    (hfile : registersFromFile files filename = .ok content)
    (hopen : openSlave bus rp = .ok device) (address : ℤ) (log : Log Request Reply) :
    (fileTransfer bus files rp address filename).run log =
      (RTUSlave.writeMultipleRegistersVector device address content.1).run log := by
  unfold fileTransfer
  rw [hfile, hopen]
  rfl

theorem transfer_delivers_iff (device : Device) (hdevice : Conforming device) (address : ℤ)
    (registers : List UInt16) (hlo : 0 ≤ address) (hhi : address + registers.length ≤ 2^16)
    (log : Log Request Reply) (memory : ℕ → UInt16) :
    (∃ sent, Delivers device address registers log memory sent) ↔
      registers.length % 123 ≠ 0 := by
  constructor
  · rintro ⟨sent, delivers⟩ hzero
    obtain ⟨e, log', hrun⟩ :=
      writeMultipleRegistersVector_throws hdevice address registers log hzero
    rw [delivers.returns] at hrun
    cases hrun
  · intro hremaining
    have accepted : ∀ step ∈ vectorSteps address registers,
        ∀ log, step.accepts (device log step.request) = true := fun step hstep =>
      (vectorSteps_checked _ _ step hstep).accepted hdevice
        (vectorSteps_wellFormed address registers hremaining step hstep)
    obtain ⟨sent, hsent, hrun⟩ := runAll_accepted device _ log accepted
    have hmemory := vectorSteps_memory address registers memory sent hsent hlo hhi hremaining
    refine ⟨sent, ?_, ?_, ?_, ?_⟩
    · rw [writeMultipleRegistersVector_eq, hrun]
    · exact answered_forall hsent (vectorSteps_wellFormed address registers hremaining)
    · intro i hi
      rw [hmemory, store_inside]
    · intro a ha
      rw [hmemory, store_outside _ _ ha]

theorem transfer_delivers_chunk :
    ∃ sent, Delivers plainDevice 10 (List.replicate 124 7) [] (fun _ => 0) sent := by
  have length : (List.replicate 124 (7 : UInt16)).length = 124 := List.length_replicate
  refine (transfer_delivers_iff plainDevice plainDevice_conforming 10 (List.replicate 124 7)
    (by decide) ?_ [] (fun _ => 0)).mpr ?_
  · rw [length]
    decide
  · rw [length]
    decide

theorem transfer_empty_fails : ¬ ∃ sent, Delivers plainDevice 0 [] [] (fun _ => 0) sent := by
  rintro ⟨sent, delivers⟩
  have h := delivers.returns
  have run : ((RTUSlave.writeMultipleRegistersVector plainDevice 0 []).run [] :
      EStateM.Result Exception (Log Request Reply) Unit) =
      .error (.runtimeError "Failed modbus_write_registers remaining: ")
        [(.writeRegisters 0 0 [], ⟨-1, [], ""⟩)] := rfl
  rw [run] at h
  cases h

end ModbusCrawler.FileTransfer
