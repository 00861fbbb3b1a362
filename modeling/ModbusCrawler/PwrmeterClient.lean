import ModbusCrawler.OneShot

set_option autoImplicit false

/-!
# `pwrmeter_client/main.cpp`

The client has option and mode types of its own. What it does with a command line of
options that both programs know is what the crawler does with it.
-/
namespace ModbusCrawler.PwrmeterClient
open CNumerals FailStop ModbusTypes ModbusSlave ModbusOps
open CrawlerMain (Stop stoiOption)
open OneShot (Ending guarded missing stopped)
open FlashRuns (plainBus sameFile)

inductive Mode where
  | unknown | singleRead | singleWrite | flashUpdate
  deriving DecidableEq, Repr

structure Options where
  mode : Mode := .unknown
  slaveId : ℤ := -1
  serialDevice : String := "/dev/ttyCOM1"
  serialConfig : String := "9600:8:N:1"
  answeringTime : ℤ := 500
  verbose : Bool := false
  deriving DecidableEq, Repr

def parseOption (o : Options) (ch : Char) (optarg : String) : Except Stop Options :=
  match ch with
  | 'v' => .ok { o with verbose := true }
  | 'R' => .ok { o with mode := .singleRead }
  | 'W' => .ok { o with mode := .singleWrite }
  | 'U' => .ok { o with mode := .flashUpdate }
  | 'd' => .ok { o with serialDevice := optarg }
  | 'c' => .ok { o with serialConfig := optarg }
  | 's' => (stoiOption optarg).map (fun n => { o with slaveId := n })
  | 'a' => (stoiOption optarg).map (fun n => { o with answeringTime := n })
  | '?' => .error (.usage (-1) "")
  | _ => .error (.usage 0 "")

def parseOptions : Options → List (Char × String) → Except Stop Options
  | o, [] => .ok o
  | o, (ch, optarg) :: rest => do
    let o ← parseOption o ch optarg
    parseOptions o rest

def rtuParameters (o : Options) : RtuParameters :=
  ⟨o.slaveId, o.serialDevice, o.serialConfig, o.answeringTime⟩

def dispatch (bus : Bus) (files : Files) (o : Options) (argv : List String)
    (log : Log Request Reply) : Ending × Log Request Reply :=
  match o.mode with
  | .singleRead =>
    match argv with
    | address :: regspec :: _ =>
      if o.slaveId < 0 then (missing "single_read", log)
      else match singleRead bus (rtuParameters o) (strtolInt address) regspec with
        | none => (.aborted, log)
        | some operation => guarded operation log
    | _ => (missing "single_read", log)
  | .singleWrite =>
    match argv with
    | address :: value :: _ =>
      if o.slaveId < 0 then (missing "single_write", log)
      else guarded (singleWrite bus (rtuParameters o) (strtolInt address)
        (strtoimax (cString value)).1) log
    | _ => (missing "single_write", log)
  | .flashUpdate =>
    match argv with
    | filename :: _ =>
      if o.slaveId < 0 then (missing "flash_update", log)
      else guarded (flashUpdate bus files (rtuParameters o) filename) log
    | _ => (missing "flash_update", log)
  | .unknown => (.usage (-1) "", log)

def main (bus : Bus) (files : Files) (args : List (Char × String)) (argv : List String) :
    Ending × Log Request Reply :=
  match parseOptions {} args with
  | .error stop => (stopped stop, [])
  | .ok o => dispatch bus files o argv []

/-- `"vURWd:c:s:a:h"`: the options that both programs know. -/
def letters : List Char := ['v', 'U', 'R', 'W', 'd', 'c', 's', 'a', 'h']

def Mode.crawler : Mode → CrawlerMain.Mode
  | .unknown => .unknown
  | .singleRead => .singleRead
  | .singleWrite => .singleWrite
  | .flashUpdate => .flashUpdate

/-- The options of the crawler that stand for those of the client. -/
def Options.crawler (o : Options) : CrawlerMain.Options where
  mode := o.mode.crawler
  slaveId := o.slaveId
  serialDevice := o.serialDevice
  serialConfig := o.serialConfig
  answeringTime := o.answeringTime

/-- Both programs take an option the same way, but for the verbosity. -/
theorem parseOption_crawler (o : Options) {ch : Char} (optarg : String) (hch : ch ∈ letters)
    (hv : ch ≠ 'v') : CrawlerMain.parseOption o.crawler ch optarg =
      (parseOption o ch optarg).map Options.crawler := by
  simp only [letters, List.mem_cons, List.not_mem_nil, or_false] at hch
  rcases hch with rfl | rfl | rfl | rfl | rfl | rfl | rfl | rfl | rfl
  · exact absurd rfl hv
  · rfl
  · rfl
  · rfl
  · rfl
  · rfl
  · change (stoiOption optarg).map _ = ((stoiOption optarg).map _).map _
    cases stoiOption optarg <;> rfl
  · change (stoiOption optarg).map _ = ((stoiOption optarg).map _).map _
    cases stoiOption optarg <;> rfl
  · rfl

/-- `args` without the verbosity. -/
def quiet (args : List (Char × String)) : List (Char × String) := args.filter (·.1 ≠ 'v')

theorem parseOptions_crawler (args : List (Char × String)) (o : Options)
    (h : ∀ arg ∈ args, arg.1 ∈ letters) : CrawlerMain.parseOptions o.crawler (quiet args) =
      (parseOptions o args).map Options.crawler := by
  induction args generalizing o with
  | nil => rfl
  | cons arg rest ih =>
    obtain ⟨ch, optarg⟩ := arg
    have tail (o : Options) := ih o fun arg harg => h arg (List.mem_cons_of_mem _ harg)
    by_cases hv : ch = 'v'
    · subst hv
      rw [quiet, List.filter_cons_of_neg (by simp), ← quiet]
      exact tail { o with verbose := true }
    · rw [quiet, List.filter_cons_of_pos (by simpa using hv), ← quiet, CrawlerMain.parseOptions,
        parseOption_crawler o optarg (h _ (List.mem_cons_self ..)) hv, parseOptions]
      cases parseOption o ch optarg with
      | error stop => rfl
      | ok next => exact tail next

theorem dispatch_crawler (bus : Bus) (files : Files) (o : Options) (argv : List String) :
    dispatch bus files o argv [] = OneShot.dispatch bus files o.crawler argv [] ∨
      dispatch bus files o argv [] = (.usage (-1) "", []) ∧
        OneShot.dispatch bus files o.crawler argv [] =
          (.usage (-1) "missing measures config file parameter", []) := by
  cases o with
  | mk mode slaveId serialDevice serialConfig answeringTime verbose =>
    cases mode with
    | unknown => exact .inr ⟨rfl, rfl⟩
    | singleRead | singleWrite | flashUpdate => exact .inl rfl

/-- The client does what the crawler does with the same options, as long as both know them.
    Without a mode both print their usage. -/
theorem client_agrees (bus : Bus) (files : Files) (args : List (Char × String))
    (argv : List String) (h : ∀ arg ∈ args, arg.1 ∈ letters) :
    main bus files args argv = OneShot.main bus files (quiet args) argv ∨
      main bus files args argv = (.usage (-1) "", []) ∧
        OneShot.main bus files (quiet args) argv =
          (.usage (-1) "missing measures config file parameter", []) := by
  have parsed := parseOptions_crawler args {} h
  change CrawlerMain.parseOptions {} (quiet args) = _ at parsed
  unfold main OneShot.main
  rw [parsed]
  cases parseOptions {} args with
  | error stop => exact .inl rfl
  | ok o => exact dispatch_crawler bus files o argv

theorem client_agrees_verbose : main plainBus (sameFile []) [('v', ""), ('R', ""), ('s', "1")]
    ["40", "2l"] = OneShot.main plainBus (sameFile []) [('R', ""), ('s', "1")] ["40", "2l"] :=
  (client_agrees plainBus (sameFile []) [('v', ""), ('R', ""), ('s', "1")] ["40", "2l"]
    (by decide)).resolve_right (by decide)

end ModbusCrawler.PwrmeterClient
