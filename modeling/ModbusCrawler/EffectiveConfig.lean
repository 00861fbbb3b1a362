import ModbusCrawler.MeasConfig
import ModbusCrawler.UniqueKeys

set_option autoImplicit false

/-!
# The loop of `read_config`, with its moves

A descriptor is moved into the map, pruned there, and then its server is asked
for the period that measures inherit: by a reference to what the move left.
-/
namespace ModbusCrawler.EffectiveConfig
open Std ModbusTypes MeasConfig UniqueKeys

variable {D : Type}

/-- What a map holds, in the order of its keys. -/
def contents (result : Except Exception (ConfigurationMap D)) :
    Except Exception (List (ℤ × Descriptor D)) := result.map (fun m => m.toList)

def enabledServers (descs : List (Descriptor D)) : List (Descriptor D) :=
  descs.filter (fun desc => desc.server.enabled)

def enabledIds (descs : List (Descriptor D)) : List ℤ :=
  (enabledServers descs).map (fun desc => desc.server.modbusId)

/-- The entry of a server in the effective configuration. -/
def effectiveEntry (desc : Descriptor D) : ℤ × Descriptor D := (desc.server.modbusId, effective desc)

def duplicateId (id : ℤ) : Exception := .invalidArgument ("Duplicate Modbus ID: " ++ toString id)

theorem insertAll_eq (descs : List (Descriptor D)) (m : ConfigurationMap D) :
    insertAll descs m =
      (insertUnique ((enabledServers descs).map effectiveEntry) m).mapError duplicateId := by
  induction descs generalizing m with
  | nil => rfl
  | cons desc rest ih =>
    unfold insertAll
    cases henabled : desc.server.enabled with
    | false => simp [enabledServers, henabled, ih]
    | true =>
      have first : (enabledServers (desc :: rest)).map effectiveEntry =
          (desc.server.modbusId, effective desc) :: (enabledServers rest).map effectiveEntry := by
        simp [enabledServers, henabled, effectiveEntry]
      rw [first, insertUnique]
      by_cases hthere : m.contains desc.server.modbusId = true
      · simp only [hthere]
        rfl
      · simp only [hthere, ih]
        rfl

theorem keys_effective (descs : List (Descriptor D)) :
    (((∅ : ConfigurationMap D).toList ++ (enabledServers descs).map effectiveEntry).map Prod.fst) =
      enabledIds descs := by
  have none : (∅ : ConfigurationMap D).toList = [] := rfl
  rw [none, List.nil_append, List.map_map]
  rfl

theorem readConfig_loop [Doubles D] {document : Except Exception (Json D)} {errno errno' : Errno}
    {descs : List (Descriptor D)} (hdecode : (decode document).run errno = .ok descs errno') :
    (readConfig document).run errno = (lift (insertAll descs ∅)).run errno' := by
  unfold readConfig
  rw [EStateM.run_bind, hdecode]

end ModbusCrawler.EffectiveConfig
