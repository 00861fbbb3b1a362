import ModbusCrawler.EffectiveConfig
import ModbusCrawler.LineConfigs
import ModbusCrawler.TaskAccounting

set_option autoImplicit false

/-!
# When the crawler starts

From the configuration file to `scheduler.run()`: which configurations get there,
and with which tasks.
-/
namespace ModbusCrawler.StartUp
open Std ModbusTypes ModbusSlave MeasConfig MeasExecutor PeriodicScheduler CrawlerMain
open UniqueKeys EffectiveConfig LineConfigs
open TaskAccounting (configureAll_throws_iff)

variable {D R : Type} [Doubles D]

/-- What `main` does in the measure mode before `scheduler.run()`; an exception leaves it. -/
def start (fileabs : Bool) (env : Environment D R) (o : Options)
    (document : Except Exception (Json D)) : Except Exception (Boot R D) :=
  match (readConfig document).run .other with
  | .error e _ => .error e
  | .ok configmap _ =>
    match (setUp fileabs env o configmap).run { reporter := { outFolder := o.outFolder } } with
    | .error e _ => .error e
    | .ok _ boot => .ok boot

/-- The parameters of the first measure of each address are read. -/
def RandomReady (stod : String → Except Exception D) (measures : List (Measure D)) : Prop :=
  ∀ before meas after, measures = before ++ meas :: after →
    (∀ m ∈ before, m.source.address ≠ meas.source.address) →
    ∃ params, RandomConfig stod meas.source.randomMeanDev.toList params

def LineReady (bus : Bus) (server : ModbusServer) : Prop :=
  ∃ line, line.device = server.serialDevice ∧ LineConfig server.lineConfig.toList line ∧
    bus.newRtu line = true ∧ bus.connectFailure line server.modbusId = none

def SlaveReady (env : Environment D R) (desc : Descriptor D) : Prop :=
  if desc.server.serialDevice = "" then RandomReady env.stod desc.measures
  else LineReady env.bus desc.server

/-- What a start needs of the decoded configuration. -/
structure Startable (env : Environment D R) (descs : List (Descriptor D)) : Prop where
  ids : (enabledIds descs).Nodup
  names : ∀ desc ∈ enabledServers descs, ((effective desc).measures.map Measure.name).Nodup
  slaves : ∀ desc ∈ enabledServers descs, SlaveReady env (effective desc)

section Slaves

omit [Doubles D] in
theorem contains_insert_false {params : TreeMap ℤ (D × D) compare} {address other : ℤ}
    {p : D × D} :
    (params.insert address p).contains other = false ↔
      address ≠ other ∧ params.contains other = false := by
  rw [TreeMap.contains_insert, Bool.or_eq_false_iff, beq_eq_false_iff_ne, Ne,
    LawfulEqCmp.compare_eq_iff_eq]

/-- An address that is in `params` has had its first measure. -/
theorem randomParams_ok_iff (stod : String → Except Exception D) (measures : List (Measure D))
    (params : TreeMap ℤ (D × D) compare) :
    (∃ params', MeasExecutor.randomParams stod measures params = .ok params') ↔
      ∀ before meas after, measures = before ++ meas :: after →
        params.contains meas.source.address = false →
        (∀ m ∈ before, m.source.address ≠ meas.source.address) →
        ∃ p, RandomConfig stod meas.source.randomMeanDev.toList p := by
  induction measures generalizing params with
  | nil =>
    refine iff_of_true ⟨params, rfl⟩ ?_
    intro before meas after h
    simp at h
  | cons first rest ih =>
    rw [MeasExecutor.randomParams]
    by_cases hthere : params.contains first.source.address = true
    · rw [if_pos hthere, ih]
      constructor
      · intro h before meas after heq hnew hothers
        rcases before with _ | ⟨b, before⟩
        · obtain ⟨rfl, _⟩ := List.cons.inj heq
          rw [hthere] at hnew
          cases hnew
        · obtain ⟨rfl, hrest⟩ := List.cons.inj heq
          exact h before meas after hrest hnew fun m hm => hothers m (List.mem_cons_of_mem _ hm)
      · intro h before meas after heq hnew hothers
        refine h (first :: before) meas after (by rw [heq]; rfl) hnew fun m hm => ?_
        rcases List.mem_cons.mp hm with rfl | hm
        · intro hsame
          rw [hsame, hnew] at hthere
          cases hthere
        · exact hothers m hm
    · have hnew := Bool.eq_false_iff.mpr hthere
      rw [if_neg hthere]
      constructor
      · rintro ⟨params', h⟩ before meas after heq hother hothers
        obtain ⟨p, hp, hrest⟩ := bind_eq_ok.mp h
        rcases before with _ | ⟨b, before⟩
        · obtain ⟨rfl, _⟩ := List.cons.inj heq
          exact ⟨p, randomParams_iff.mp hp⟩
        · obtain ⟨rfl, hsplit⟩ := List.cons.inj heq
          refine (ih _).mp ⟨params', hrest⟩ before meas after hsplit ?_
            fun m hm => hothers m (List.mem_cons_of_mem _ hm)
          exact contains_insert_false.mpr ⟨hothers _ (List.mem_cons_self ..), hother⟩
      · intro h
        obtain ⟨p, hp⟩ := h [] first rest rfl hnew (by simp)
        have others := (ih (params.insert first.source.address p)).mpr ?_
        · obtain ⟨params', hrest⟩ := others
          exact ⟨params', bind_eq_ok.mpr ⟨p, randomParams_iff.mpr hp, hrest⟩⟩
        · intro before meas after heq hinserted hothers
          obtain ⟨hne, hother⟩ := contains_insert_false.mp hinserted
          refine h (first :: before) meas after (by rw [heq]; rfl) hother fun m hm => ?_
          rcases List.mem_cons.mp hm with rfl | hm
          · exact hne
          · exact hothers m hm

theorem connect_ok_iff {bus : Bus} {serverId answeringTime : ℤ} {line : SerialLine} :
    (∃ device, RTUSlave.connect bus serverId line answeringTime = .ok device) ↔
      bus.newRtu line = true ∧ bus.connectFailure line serverId = none := by
  unfold RTUSlave.connect
  cases bus.newRtu line <;> cases bus.connectFailure line serverId <;> simp

theorem makeSlave_ok_iff (env : Environment D R) {slaves : List ℤ} {desc : Descriptor D}
    (hnew : slaves.contains desc.server.modbusId = false) :
    (∃ slave, makeSlave env slaves desc.server desc.measures = .ok slave) ↔
      SlaveReady env desc := by
  have emplaced {construct : Except Exception (SlaveConcept (Sources R))} :
      emplaceSlave slaves desc.server.modbusId construct = construct := by
    rw [emplaceSlave, hnew]
    rfl
  unfold makeSlave SlaveReady
  simp only [emplaced]
  split_ifs with hrandom
  · have first := randomParams_ok_iff env.stod desc.measures ∅
    simp only [TreeMap.contains_emptyc, true_implies] at first
    rw [RandomReady, ← first]
    constructor
    · rintro ⟨slave, h⟩
      obtain ⟨params, hparams, _⟩ := bind_eq_ok.mp h
      exact ⟨params, hparams⟩
    · rintro ⟨params, hparams⟩
      exact ⟨_, bind_eq_ok.mpr ⟨params, hparams, rfl⟩⟩
  · constructor
    · rintro ⟨slave, h⟩
      obtain ⟨line, hline, hrest⟩ := bind_eq_ok.mp h
      obtain ⟨device, hdevice, _⟩ := bind_eq_ok.mp hrest
      obtain ⟨hname, hconfig⟩ := serialLine_iff.mp hline
      exact ⟨line, hname, hconfig, connect_ok_iff.mp ⟨device, hdevice⟩⟩
    · rintro ⟨line, hname, hconfig, hconnected⟩
      obtain ⟨device, hdevice⟩ := connect_ok_iff.mpr hconnected
      exact ⟨_, bind_eq_ok.mpr ⟨line, serialLine_iff.mpr ⟨hname, hconfig⟩,
        bind_eq_ok.mpr ⟨device, hdevice, rfl⟩⟩⟩

/-- The executor gets through when every slave is ready: no id is there twice. -/
theorem constructed_all_iff (env : Environment D R) (descs : List (Descriptor D))
    (slaves : List ℤ) (hids : (descs.map (fun desc => desc.server.modbusId)).Nodup)
    (hnew : ∀ desc ∈ descs, slaves.contains desc.server.modbusId = false) :
    (constructed env descs slaves).map Prod.snd = descs ↔
      ∀ desc ∈ descs, SlaveReady env desc := by
  induction descs generalizing slaves with
  | nil => simp [constructed]
  | cons el rest ih =>
    rw [List.map_cons, List.nodup_cons] at hids
    have ready := makeSlave_ok_iff env (hnew el (List.mem_cons_self ..))
    have others : ∀ desc ∈ rest,
        (el.server.modbusId :: slaves).contains desc.server.modbusId = false := by
      intro desc hdesc
      have other : desc.server.modbusId ≠ el.server.modbusId := by
        intro hsame
        exact hids.1 (hsame ▸ List.mem_map_of_mem hdesc)
      have old := hnew desc (List.mem_cons_of_mem _ hdesc)
      simpa [other] using old
    rw [constructed, List.forall_mem_cons, ← ready]
    cases hslave : makeSlave env slaves el.server el.measures with
    | error e => simp
    | ok slave =>
      dsimp only
      rw [List.map_cons, List.cons_eq_cons, ih _ hids.2 others]
      simp

end Slaves

def serverKeys (desc : Descriptor D) : List MeasReporter.Key :=
  desc.measures.map (fun meas => (⟨desc.server.name, desc.server.modbusId⟩, meas.name))

omit [Doubles D] in
theorem serverKeys_nodup_iff (desc : Descriptor D) :
    (serverKeys desc).Nodup ↔ (desc.measures.map Measure.name).Nodup := by
  have keys : serverKeys desc = (desc.measures.map Measure.name).map
      (Prod.mk ⟨desc.server.name, desc.server.modbusId⟩) := (List.map_map ..).symm
  rw [keys]
  exact List.nodup_map_iff fun _ _ h => (Prod.mk.inj h).2

omit [Doubles D] in
/-- Measures of different servers have different keys. -/
theorem measureKeys_nodup_iff {descs : List (Descriptor D)}
    (hids : (descs.map (fun desc => desc.server.modbusId)).Nodup) :
    (measureKeys descs).Nodup ↔ ∀ desc ∈ descs, (desc.measures.map Measure.name).Nodup := by
  have apart : descs.Pairwise (Function.onFun List.Disjoint serverKeys) := by
    refine (List.pairwise_map.mp hids).imp fun hne key hfirst hsecond => ?_
    obtain ⟨_, _, rfl⟩ := List.mem_map.mp hfirst
    obtain ⟨_, _, hsame⟩ := List.mem_map.mp hsecond
    exact hne (congrArg (fun key => key.1.serverId) hsame).symm
  change (descs.flatMap serverKeys).Nodup ↔ _
  rw [List.nodup_flatMap]
  simp only [serverKeys_nodup_iff, apart, and_true]

section Configuration
variable {descs : List (Descriptor D)} {configmap : ConfigurationMap D}

omit [Doubles D] in
theorem entries_perm (h : insertAll descs ∅ = .ok configmap) :
    configmap.toList.Perm ((enabledServers descs).map effectiveEntry) := by
  rw [insertAll_eq] at h
  cases hfilled : insertUnique ((enabledServers descs).map effectiveEntry)
      (∅ : ConfigurationMap D) with
  | error id =>
    rw [hfilled] at h
    cases h
  | ok filled =>
    rw [hfilled] at h
    cases h
    exact insertUnique_toList hfilled

omit [Doubles D] in
theorem descriptors_perm (h : insertAll descs ∅ = .ok configmap) :
    (descriptors configmap).Perm ((enabledServers descs).map effective) := by
  have servers := (entries_perm h).map Prod.snd
  rw [List.map_map] at servers
  exact servers

omit [Doubles D] in
theorem insertAll_ok_iff (descs : List (Descriptor D)) :
    (∃ configmap, insertAll descs ∅ = .ok configmap) ↔ (enabledIds descs).Nodup := by
  rw [← keys_effective, insertAll_eq, ← not_iff_not, ← insertUnique_error_iff]
  cases insertUnique ((enabledServers descs).map effectiveEntry) (∅ : ConfigurationMap D) <;>
    simp [Except.mapError]

omit [Doubles D] in
/-- The servers are in the order of their ids. -/
theorem descriptors_sorted (h : insertAll descs ∅ = .ok configmap) :
    (descriptors configmap).Pairwise (fun a b => a.server.modbusId < b.server.modbusId) := by
  have keys : ∀ entry ∈ configmap.toList, entry.1 = entry.2.server.modbusId := by
    intro entry hentry
    obtain ⟨desc, _, rfl⟩ := List.mem_map.mp ((entries_perm h).mem_iff.mp hentry)
    rfl
  rw [descriptors, List.pairwise_map]
  refine TreeMap.ordered_keys_toList.imp_of_mem fun ha hb hlt => ?_
  rw [← keys _ ha, ← keys _ hb]
  exact Int.compare_eq_lt.mp hlt

end Configuration

/-! The tasks that a start leaves with the scheduler. -/

def described {S : Type} (t : ScheduledTask S) : String × ℤ × TaskMode :=
  (t.name, t.interval, t.mode)

def ownTasks (fileabs : Bool) (o : Options) : List (String × ℤ × TaskMode) :=
  ("ReportGenerator", o.reportingPeriod, .executeAtMultiplesOfPeriod) ::
    if fileabs && o.logPath ≠ "" then [("LogRotator", o.logrotationPeriod, .skipFirstExecution)]
    else []

def serverTasks (desc : Descriptor D) : List (String × ℤ × TaskMode) :=
  desc.measures.map (fun meas =>
    ("Server_" ++ toString desc.server.modbusId ++ "/" ++ meas.name, meas.samplingPeriod,
      .executeAtStart))

/-- The own tasks, then those of the enabled measures of every enabled server, by id. -/
def Started (fileabs : Bool) (o : Options) (descs : List (Descriptor D)) (boot : Boot R D) : Prop :=
  ∃ servers : List (Descriptor D), servers.Perm ((enabledServers descs).map effective) ∧
    servers.Pairwise (fun a b => a.server.modbusId < b.server.modbusId) ∧
    boot.scheduler.map described = ownTasks fileabs o ++ servers.flatMap serverTasks

section Tasks
variable {σ : Type}

theorem ownJobs_described (fileabs : Bool) (o : Options) :
    (ownJobs fileabs o : List (Job σ D)).map (described ∘ Job.scheduled) =
      ownTasks fileabs o := by
  unfold ownJobs ownTasks
  split_ifs <;> rfl

theorem measureJobs_described (env : Environment D R) (descs : List (Descriptor D))
    (slaves : List ℤ) : (measureJobs (constructed env descs slaves)).map (described ∘ Job.scheduled) =
      ((constructed env descs slaves).map Prod.snd).flatMap serverTasks := by
  induction descs generalizing slaves with
  | nil => rfl
  | cons el rest ih =>
    unfold constructed
    cases hslave : makeSlave env slaves el.server el.measures with
    | error e => rfl
    | ok slave =>
      obtain ⟨_, hid, _⟩ := makeSlave_key hslave
      have own : (el.measures.map (Job.measure slave)).map (described ∘ Job.scheduled) =
          serverTasks el := by
        rw [List.map_map, serverTasks, ← hid]
        rfl
      rw [measureJobs, List.flatMap_cons, List.map_append, List.map_cons, List.flatMap_cons, own]
      exact congrArg _ (ih _)

end Tasks

/-- A set-up that completes has scheduled the measures of all servers. -/
theorem setUp_ok_iff (fileabs : Bool) (env : Environment D R) (o : Options)
    {configmap : ConfigurationMap D}
    (hids : ((descriptors configmap).map (fun desc => desc.server.modbusId)).Nodup) :
    (∃ boot, (setUp fileabs env o configmap).run { reporter := { outFolder := o.outFolder } } =
        .ok () boot) ↔
      ∀ desc ∈ descriptors configmap,
        (desc.measures.map Measure.name).Nodup ∧ SlaveReady env desc := by
  have slaves := constructed_all_iff env (descriptors configmap) [] hids (by simp)
  have configured := configureAll_throws_iff (descriptors configmap) o.outFolder
  rw [measureKeys_nodup_iff hids] at configured
  rw [forall₂_and, ← slaves]
  rcases setUp_run fileabs env o configmap { outFolder := o.outFolder } with
    ⟨e, reporter', hthrows, hrun⟩ | ⟨reporter', hconfigure, ⟨hrun, hall⟩ | ⟨e, hrun, hmissing⟩⟩
  · refine iff_of_false ?_ fun h => configured.mp ⟨e, reporter', hthrows⟩ h.1
    rintro ⟨boot, hboot⟩
    rw [hrun] at hboot
    cases hboot
  · refine iff_of_true ⟨_, hrun⟩ ⟨?_, hall⟩
    by_contra hnames
    obtain ⟨e, r, hthrows⟩ := configured.mpr hnames
    rw [hthrows] at hconfigure
    cases hconfigure
  · refine iff_of_false ?_ fun h => hmissing h.2
    rintro ⟨boot, hboot⟩
    rw [hrun] at hboot
    cases hboot

theorem setUp_described {fileabs : Bool} {env : Environment D R} {o : Options}
    {configmap : ConfigurationMap D} {boot : Boot R D}
    (h : (setUp fileabs env o configmap).run { reporter := { outFolder := o.outFolder } } =
      .ok () boot) : boot.scheduler.map described =
        ownTasks fileabs o ++ (descriptors configmap).flatMap serverTasks := by
  obtain ⟨_, hscheduler, hall⟩ := setUp_ok h
  rw [hscheduler, List.map_map, List.map_append, ownJobs_described, measureJobs_described, hall]

omit [Doubles D] in
theorem startable_iff {env : Environment D R} {descs : List (Descriptor D)}
    {configmap : ConfigurationMap D} (h : insertAll descs ∅ = .ok configmap) :
    Startable env descs ↔ ∀ desc ∈ descriptors configmap,
      (desc.measures.map Measure.name).Nodup ∧ SlaveReady env desc := by
  have ids := (insertAll_ok_iff descs).mp ⟨configmap, h⟩
  simp only [(descriptors_perm h).mem_iff, List.forall_mem_map]
  constructor
  · intro hstart desc hdesc
    exact ⟨hstart.names desc hdesc, hstart.slaves desc hdesc⟩
  · intro hready
    exact ⟨ids, fun desc hdesc => (hready desc hdesc).1, fun desc hdesc => (hready desc hdesc).2⟩

/-- The crawler starts on exactly the configurations that are startable, with their tasks. -/
theorem start_settled (fileabs : Bool) (env : Environment D R) (o : Options)
    (document : Except Exception (Json D)) :
    match start fileabs env o document with
    | .ok boot => ∃ descs errno, (decode document).run .other = .ok descs errno ∧
        Startable env descs ∧ Started fileabs o descs boot
    | .error _ => ∀ descs errno, (decode document).run .other = .ok descs errno →
        ¬ Startable env descs := by
  unfold start
  cases hdecode : (decode document).run .other with
  | error e errno =>
    have failed : (readConfig document).run .other = .error e errno := by
      rw [readConfig, EStateM.run_bind, hdecode]
    rw [failed]
    intro _ _ h
    cases h
  | ok descs errno =>
    rw [readConfig_loop hdecode]
    cases hinsert : insertAll descs ∅ with
    | error e =>
      rintro _ _ ⟨⟩ hstart
      obtain ⟨configmap, h⟩ := (insertAll_ok_iff descs).mpr hstart.ids
      rw [hinsert] at h
      cases h
    | ok configmap =>
      have ids : ((descriptors configmap).map (fun desc => desc.server.modbusId)).Nodup := by
        refine List.pairwise_map.mpr ((descriptors_sorted hinsert).imp fun hlt => ?_)
        exact Int.ne_of_lt hlt
      have ready := (setUp_ok_iff fileabs env o ids).trans
        (startable_iff hinsert).symm
      change match (match (setUp fileabs env o configmap).run { reporter := { outFolder := o.outFolder } } with
        | .error e _ => Except.error e
        | .ok _ boot => .ok boot : Except Exception (Boot R D)) with
        | .ok boot => _
        | .error _ => _
      cases hsetUp : (setUp fileabs env o configmap).run { reporter := { outFolder := o.outFolder } } with
      | error e boot =>
        rintro _ _ ⟨⟩ hstart
        obtain ⟨boot', h⟩ := ready.mpr hstart
        rw [hsetUp] at h
        cases h
      | ok _ boot =>
        exact ⟨descs, errno, rfl, ready.mp ⟨boot, hsetUp⟩, descriptors configmap,
          descriptors_perm hinsert, descriptors_sorted hinsert, setUp_described hsetUp⟩

end ModbusCrawler.StartUp
