import ModbusCrawler.BurstErrors
import ModbusCrawler.FlashRuns

set_option autoImplicit false

/-!
# What the checksum of a flash update is good for

The two registers that are written before 'done' tell the image from every other
content of the flash that differs from it in one burst of at most 32 bits.
-/
namespace ModbusCrawler.ImageChecks
open FailStop ModbusTypes ModbusSlave ModbusOps FilePacking FileTransfer FlashPlan FlashDevice
open FlashUpdate FlashRuns BurstErrors

def fileBits (bytes : List UInt8) : List Bool := streamBits (bytes.map UInt8.toBitVec)

theorem crc32_burst {xs ys : List UInt8} (h : Burst 32 (fileBits xs) (fileBits ys)) :
    crc32 xs ≠ crc32 ys := by
  have top : CRC32.polynomial.toBitVec.getLsbD (32 - 1) = true := by decide
  intro same
  exact checksum_burst top (by decide) h (UInt32.toBitVec_inj.mpr same)

/-- What the device knows of the checksum when 'done' arrives. -/
theorem beforeDone_checksum (d : State) (content : List UInt16) (checksum : UInt32) :
    (d.replay ((beforeDone content checksum).map Step.request)).pair .crc32High .crc32Low =
      checksum.toNat := by
  rw [beforeDone, List.map_append, State.replay_append]
  exact finalSteps_crc32 _ (content.length * 2) checksum

/-- A flash that was spoiled by a burst does not have the checksum that the update sent. -/
theorem flashUpdate_detects_burst {bus : Bus} {files : Files} {rp : RtuParameters}
    {filename : String} {device : Device} {bytes : List UInt8}
    (hopen : openSlave bus rp = .ok device) (hfile : files (imageName device filename) = some bytes)
    {before after : Log Request Reply} {reply : Reply}
    (hlog : finalLog (flashUpdate bus files rp filename) [] = before ++ (doneRequest, reply) :: after)
    (d : State) {stored : List UInt8} (hburst : Burst 32 (fileBits (padded bytes)) (fileBits stored)) :
    (d.replay (before.map Prod.fst)).pair .crc32High .crc32Low ≠ (crc32 stored).toNat := by
  obtain ⟨content, hregisters, _⟩ := registersFromFile_ok hfile
  have sent := flashUpdate_prefix hopen (fun _ => hregisters)
  rw [hlog, List.map_append, List.map_cons] at sent
  rw [(split_at_done _ _ sent).1, State.replay_cons, beforeDone_checksum]
  intro same
  exact crc32_burst hburst (UInt32.toNat_inj.mp same)

theorem flashUpdate_detects_burst_five : ∃ before reply,
    (flashUpdate plainBus (sameFile [1, 2, 3, 4, 5]) plainRtu "fw").run [] =
      .ok () (before ++ [(doneRequest, reply)]) ∧
    (State.replay ⟨fun _ => 0, fun _ => 0xFF, []⟩ (before.map Prod.fst)).pair
      .crc32High .crc32Low ≠ (crc32 [1, 2, 3, 4, 0x85, 0, 0, 0]).toNat := by
  obtain ⟨before, reply, hrun, _⟩ := flashUpdate_completes
    (show openSlave plainBus plainRtu = .ok plainDevice from rfl)
    (show sameFile [1, 2, 3, 4, 5] (imageName plainDevice "fw") = some _ from rfl)
    plainDevice_conforming (fun half => absurd half.1 (by decide))
  have burst : Burst 32 (fileBits (padded [1, 2, 3, 4, 5]))
      (fileBits [1, 2, 3, 4, 0x85, 0, 0, 0]) :=
    ⟨fileBits [1, 2, 3, 4], fileBits [5], fileBits [0x85], fileBits [0, 0, 0], by decide, by decide,
      by decide, by decide, by decide⟩
  have log : finalLog (flashUpdate plainBus (sameFile [1, 2, 3, 4, 5]) plainRtu "fw") [] =
      before ++ [(doneRequest, reply)] := by
    unfold finalLog
    rw [hrun]
  exact ⟨before, reply, hrun, flashUpdate_detects_burst
    (show openSlave plainBus plainRtu = .ok plainDevice from rfl)
    (show sameFile [1, 2, 3, 4, 5] (imageName plainDevice "fw") = some _ from rfl)
    log _ burst⟩

end ModbusCrawler.ImageChecks
