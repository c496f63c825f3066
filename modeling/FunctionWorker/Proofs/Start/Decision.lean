import FunctionWorker.Handler.Adapter
import FunctionWorker.Proofs.Host.Answers
import FunctionWorker.Proofs.Host.Reports
import FunctionWorker.Proofs.Text.Numeral
import FunctionWorker.Start.Basic

/-!
# What a start decides

A start does one of four things, and four variables and one option decide which. Another program
counts before the host, the host before the number of workers, and the option before the variable.
The plans are told here by what the variables say, without regard to the order in which they are
looked at, and for each plan what the start does.

Results:
1. `natural_trim_iff`: which texts ask for a number of workers.
2. `exists_plans`, `plan_eq_iff`: there is one plan for all variables, and it is the one that is made.
3. `reject_spec`: how a start ends that is told to the host.
4. `run_decides`: what a start does.
-/

namespace FunctionWorker

open Text (IsBlankText)

/-! ## Definitions -/

/-- A variable tells a value. An empty one tells nothing. -/
def Environment.Tells (env : Environment) (name value : String) : Prop :=
  env name = some value ∧ value ≠ ""

def Environment.Silent (env : Environment) (name : String) : Prop :=
  ∀ value, env name = some value → value = ""

/-- A text asks for a number of workers: digits, perhaps behind a plus sign, with white space around
them, and what they spell is positive and not too large. -/
inductive AsksFor (raw : String) (n : Nat) : Prop
  | mk {before sign digits after : List Char} :
      raw.toList = before ++ (sign ++ digits) ++ after →
      IsBlankText before → IsBlankText after →
      sign = [] ∨ sign = ['+'] → digits ≠ [] → (∀ c ∈ digits, c.isDigit = true) →
      Nat.ofDigitChars 10 digits 0 = n → 1 ≤ n → n ≤ StartSettings.maxWorkers → AsksFor raw n

/-- What is told about a text that asks for no number of workers. -/
def StartSettings.noNumber (raw : String) : Fatal :=
  .invalidConfig (concurrencyVariable ++ " must be a positive integer, got " ++ Text.quoted raw)

/-- What is to be done, by what the variables and the option say. -/
inductive Plans (env : Environment) (concurrency : Option Nat) : StartPlan → Prop
  | handOff {wrapper : String} : env.Tells wrapperVariable wrapper →
      Plans env concurrency (.handOff wrapper)
  | legacy {port : String} : env.Silent wrapperVariable → env.Silent apiVariable →
      env.Tells legacyPortVariable port →
      Plans env concurrency (.giveUp (.unsupportedTransport
        (legacyPortVariable ++ "=" ++ port ++ " selects the legacy transport; set " ++ apiVariable)))
  | nowhere : env.Silent wrapperVariable → env.Silent apiVariable →
      env.Silent legacyPortVariable → Plans env concurrency (.giveUp (.missingVariable apiVariable))
  | option {address : String} {n : Nat} : env.Silent wrapperVariable →
      env.Tells apiVariable address → concurrency = some n →
      Plans env concurrency (.serve ⟨address⟩ (max n 1))
  | single {address : String} : env.Silent wrapperVariable → env.Tells apiVariable address →
      concurrency = none → env.Silent concurrencyVariable →
      Plans env concurrency (.serve ⟨address⟩ 1)
  | asked {address raw : String} {n : Nat} : env.Silent wrapperVariable →
      env.Tells apiVariable address → concurrency = none → env.Tells concurrencyVariable raw →
      AsksFor raw n → Plans env concurrency (.serve ⟨address⟩ n)
  | reject {address raw : String} : env.Silent wrapperVariable → env.Tells apiVariable address →
      concurrency = none → env.Tells concurrencyVariable raw → (∀ n, ¬ AsksFor raw n) →
      Plans env concurrency (.reject ⟨address⟩ (StartSettings.noNumber raw))

namespace Start

/-- The first answer that arrives. -/
inductive FirstAnswer (arrivals : List Arrival) (a : Answer) : Prop
  | mk {before after : List Arrival} : arrivals = before ++ .answer a :: after →
      (∀ b, .answer b ∉ before) → FirstAnswer arrivals a

/-- How a start ends that the host was told about: with the error that it was told, or with the one
of the post. -/
inductive Closes (e : Fatal) (a : Answer) : Except Fatal Unit → Prop
  | accepted : a.Accepts → Closes e a (.error e)
  | failed {fault : Fatal} : a.FailsPost "init/error" fault → Closes e a (.error fault)

/-- The host was told in one post. -/
structure TellsHost (client : Client) (e : Fatal) (arrivals : List Arrival) (served : Served)
    (post : Request) : Prop where
  requests : served.requests = [post]
  target : post.For client .initError .post
  body : post.body = .full (Failure.of "Runtime.InvalidConfig" e.message).document
  kind : post.headers.filter (·.1 = errorTypeTrailer) =
    [(errorTypeTrailer, Bytes.ofText "Runtime.InvalidConfig")]
  result : ∀ r, served.result = some r ↔ ∃ a, FirstAnswer arrivals a ∧ Closes e a r

end Start

/-! ## Variables -/

namespace DecisionLemmas

variable {env : Environment} {name value : String}

theorem filter_eq_some_iff : (env name).filter (fun v => v != "") = some value ↔
    env.Tells name value := by
  simp [Option.filter_eq_some_iff, Environment.Tells]

theorem filter_eq_none_iff : (env name).filter (fun v => v != "") = none ↔ env.Silent name := by
  simp [Option.filter_eq_none_iff, Environment.Silent]

theorem tells_or_silent (env : Environment) (name : String) :
    (∃ value, env.Tells name value) ∨ env.Silent name := by
  cases h : (env name).filter (fun v => v != "") with
  | some value => exact .inl ⟨value, filter_eq_some_iff.1 h⟩
  | none => exact .inr (filter_eq_none_iff.1 h)

/-! ## Numbers of workers -/

theorem tight_numeral {sign digits : List Char} (hsign : sign = [] ∨ sign = ['+'])
    (hne : digits ≠ []) (hdigits : ∀ c ∈ digits, c.isDigit = true) :
    Text.Tight (sign ++ digits) := by
  rcases hsign with rfl | rfl
  · exact Text.tight_digits hdigits
  · have hplus : Text.Tight ['+'] := by decide +kernel
    exact hplus.append (Text.tight_digits hdigits) (List.cons_ne_nil _ _) hne []

/-- A text is read as a number of workers if it asks for this number. -/
theorem natural_trim_iff {raw : String} {n : Nat} :
    (Text.natural StartSettings.maxWorkers (Text.trim raw.toList) = .ok n ∧ 1 ≤ n) ↔
      AsksFor raw n := by
  constructor
  · rintro ⟨hread, hpositive⟩
    obtain ⟨digits, htext, hne, hdigits, hvalue, hbound⟩ := Text.natural_eq_ok_iff.1 hread
    obtain ⟨before, after, hraw, hbefore, hafter⟩ := Text.exists_between raw.toList
    rcases htext with hplain | hplus
    · rw [hplain] at hraw
      have hsign : ([] : List Char) = [] ∨ [] = ['+'] := .inl rfl
      exact .mk hraw hbefore hafter hsign hne hdigits hvalue hpositive hbound
    · rw [hplus] at hraw
      have hsign : ['+'] = [] ∨ ['+'] = ['+'] := .inr rfl
      exact .mk hraw hbefore hafter hsign hne hdigits hvalue hpositive hbound
  · rintro ⟨hraw, hbefore, hafter, hsign, hne, hdigits, hvalue, hpositive, hbound⟩
    refine ⟨?_, hpositive⟩
    rw [hraw, Text.trim_between hbefore (tight_numeral hsign hne hdigits) hafter]
    refine Text.natural_eq_ok_iff.2 ⟨_, ?_, hne, hdigits, hvalue, hbound⟩
    rcases hsign with rfl | rfl
    · exact .inl rfl
    · exact .inr rfl

/-! ## Plans -/

theorem workers_eq {raw : String} (h : env.Tells concurrencyVariable raw) :
    (StartSettings.ofEnvironment env).workers =
      match Text.natural StartSettings.maxWorkers (Text.trim raw.toList) with
      | .ok n => if 1 ≤ n then .ok n else .error (StartSettings.noNumber raw)
      | .error _ => .error (StartSettings.noNumber raw) := by
  have htold : (StartSettings.ofEnvironment env).concurrency = some raw := filter_eq_some_iff.2 h
  rw [StartSettings.workers, htold]
  rfl

theorem workers_of_asksFor {raw : String} {n : Nat} (h : env.Tells concurrencyVariable raw)
    (hraw : AsksFor raw n) : (StartSettings.ofEnvironment env).workers = .ok n := by
  obtain ⟨hread, hpositive⟩ := natural_trim_iff.2 hraw
  rw [workers_eq h, hread]
  exact if_pos hpositive

theorem workers_of_not_asksFor {raw : String} (h : env.Tells concurrencyVariable raw)
    (hraw : ∀ n, ¬ AsksFor raw n) :
    (StartSettings.ofEnvironment env).workers = .error (StartSettings.noNumber raw) := by
  rw [workers_eq h]
  cases hread : Text.natural StartSettings.maxWorkers (Text.trim raw.toList) with
  | error fault => rfl
  | ok n => exact if_neg fun hpositive => hraw n (natural_trim_iff.1 ⟨hread, hpositive⟩)

theorem workers_of_silent (h : env.Silent concurrencyVariable) :
    (StartSettings.ofEnvironment env).workers = .ok 1 := by
  have hnone : (StartSettings.ofEnvironment env).concurrency = none := filter_eq_none_iff.2 h
  unfold StartSettings.workers
  rw [hnone]

theorem hostAddress_of_tells {address : String} (h : env.Tells apiVariable address) :
    (StartSettings.ofEnvironment env).hostAddress = .ok address := by
  have htold : (StartSettings.ofEnvironment env).apiAddress = some address :=
    filter_eq_some_iff.2 h
  unfold StartSettings.hostAddress
  rw [htold]

theorem wrapper_of_silent (h : env.Silent wrapperVariable) :
    (StartSettings.ofEnvironment env).wrapper = none := filter_eq_none_iff.2 h

end DecisionLemmas

open DecisionLemmas

variable {env : Environment} {concurrency : Option Nat} {plan : StartPlan}

/-- The variables and the option always say what is to be done. -/
theorem exists_plans (env : Environment) (concurrency : Option Nat) :
    ∃ plan, Plans env concurrency plan := by
  rcases tells_or_silent env wrapperVariable with ⟨wrapper, hwrapper⟩ | hwrapper
  · exact ⟨_, .handOff hwrapper⟩
  rcases tells_or_silent env apiVariable with ⟨address, haddress⟩ | haddress
  · cases hoption : concurrency with
    | some n => exact ⟨_, .option hwrapper haddress rfl⟩
    | none =>
      rcases tells_or_silent env concurrencyVariable with ⟨raw, hraw⟩ | hraw
      · by_cases hasks : ∃ n, AsksFor raw n
        · obtain ⟨n, hn⟩ := hasks
          exact ⟨_, .asked hwrapper haddress rfl hraw hn⟩
        · exact ⟨_, .reject hwrapper haddress rfl hraw (not_exists.1 hasks)⟩
      · exact ⟨_, .single hwrapper haddress rfl hraw⟩
  · rcases tells_or_silent env legacyPortVariable with ⟨port, hport⟩ | hport
    · exact ⟨_, .legacy hwrapper haddress hport⟩
    · exact ⟨_, .nowhere hwrapper haddress hport⟩

/-- What is to be done is what is planned. -/
theorem Plans.plan_eq (h : Plans env concurrency plan) :
    StartPlan.of (.ofEnvironment env) concurrency = plan := by
  cases h with
  | handOff hwrapper =>
    have htold : (StartSettings.ofEnvironment env).wrapper = some _ := filter_eq_some_iff.2 hwrapper
    rw [StartPlan.of, htold]
  | legacy hwrapper haddress hport =>
    have hnone : (StartSettings.ofEnvironment env).apiAddress = none :=
      filter_eq_none_iff.2 haddress
    have htold : (StartSettings.ofEnvironment env).legacyPort = some _ := filter_eq_some_iff.2 hport
    rw [StartPlan.of, wrapper_of_silent hwrapper, StartSettings.hostAddress, hnone, htold]
  | nowhere hwrapper haddress hport =>
    have hnone : (StartSettings.ofEnvironment env).apiAddress = none :=
      filter_eq_none_iff.2 haddress
    have hno : (StartSettings.ofEnvironment env).legacyPort = none := filter_eq_none_iff.2 hport
    rw [StartPlan.of, wrapper_of_silent hwrapper, StartSettings.hostAddress, hnone, hno]
  | option hwrapper haddress hoption =>
    rw [StartPlan.of, wrapper_of_silent hwrapper, hostAddress_of_tells haddress, hoption]
  | single hwrapper haddress hoption hraw =>
    rw [StartPlan.of, wrapper_of_silent hwrapper, hostAddress_of_tells haddress, hoption,
      workers_of_silent hraw]
  | asked hwrapper haddress hoption hraw hasks =>
    rw [StartPlan.of, wrapper_of_silent hwrapper, hostAddress_of_tells haddress, hoption,
      workers_of_asksFor hraw hasks]
  | reject hwrapper haddress hoption hraw hasks =>
    rw [StartPlan.of, wrapper_of_silent hwrapper, hostAddress_of_tells haddress, hoption,
      workers_of_not_asksFor hraw hasks]

theorem plan_eq_iff :
    StartPlan.of (.ofEnvironment env) concurrency = plan ↔ Plans env concurrency plan := by
  refine ⟨fun h => ?_, Plans.plan_eq⟩
  obtain ⟨other, hother⟩ := exists_plans env concurrency
  rw [← h, hother.plan_eq]
  exact hother

/-- With a number in the options the variable has no part in the plan. -/
theorem Plans.of_option {other : Environment} {n : Nat} (h : Plans env (some n) plan)
    (hother : ∀ name, name ≠ concurrencyVariable → other name = env name) :
    Plans other (some n) plan := by
  -- What the other variables say is the same, and no plan with a number looks at this one.
  have htells : ∀ {name value}, name ≠ concurrencyVariable → env.Tells name value →
      other.Tells name value := fun hname ht => ⟨(hother _ hname).trans ht.1, ht.2⟩
  have hsilent : ∀ {name}, name ≠ concurrencyVariable → env.Silent name → other.Silent name :=
    fun hname hs value hvalue => hs value ((hother _ hname).symm.trans hvalue)
  have hwrapperName : wrapperVariable ≠ concurrencyVariable := by decide
  have hapiName : apiVariable ≠ concurrencyVariable := by decide
  have hportName : legacyPortVariable ≠ concurrencyVariable := by decide
  cases h with
  | handOff hwrapper => exact .handOff (htells hwrapperName hwrapper)
  | legacy hwrapper haddress hport =>
    exact .legacy (hsilent hwrapperName hwrapper) (hsilent hapiName haddress)
      (htells hportName hport)
  | nowhere hwrapper haddress hport =>
    exact .nowhere (hsilent hwrapperName hwrapper) (hsilent hapiName haddress)
      (hsilent hportName hport)
  | option hwrapper haddress hoption =>
    exact .option (hsilent hwrapperName hwrapper) (htells hapiName haddress) hoption
  | single _ _ hoption => cases hoption
  | asked _ _ hoption => cases hoption
  | reject _ _ hoption => cases hoption

/-- There is always a worker. -/
theorem Plans.one_le {client : Client} {n : Nat} (h : Plans env concurrency (.serve client n)) :
    1 ≤ n := by
  cases h with
  | option => exact Nat.le_max_right _ _
  | single => exact Nat.le_refl 1
  | asked _ _ _ _ hasks =>
    cases hasks
    assumption

/-- The crew of a service has as many workers as it was made for. -/
theorem Service.length_workers {s : Service} (h : 1 ≤ s.workers) (p : ProcessState) :
    (s.crew p).workers.length = s.workers := by
  unfold crew
  split
  · exact List.length_replicate
  · next hone =>
    have hsingle : s.workers = 1 := by omega
    rw [hsingle]
    rfl

namespace Start

/-! ## Telling the host -/

theorem answer?_eq_some_iff {arrivals : List Arrival} {a : Answer} :
    reject.answer? arrivals = some a ↔ FirstAnswer arrivals a := by
  rw [reject.answer?, List.findSome?_eq_some_iff]
  constructor
  · rintro ⟨before, x, after, rfl, hx, hbefore⟩
    cases x with
    | answer b =>
      cases hx
      exact ⟨rfl, fun c hc => Option.some_ne_none c (hbefore _ hc)⟩
    | cancel point => cases hx
    | time now => cases hx
  · rintro ⟨rfl, hbefore⟩
    refine ⟨_, _, _, rfl, rfl, fun x hx => ?_⟩
    cases x with
    | answer b => exact absurd hx (hbefore b)
    | cancel point => rfl
    | time now => rfl

/-- What becomes of the post decides with which error the start ends. -/
theorem told_readPosted_iff {e : Fatal} {a : Answer} {r : Except Fatal Unit} :
    reject.told e (Client.readPosted .initError a) = r ↔ Closes e a r := by
  constructor
  · rintro rfl
    cases hread : Client.readPosted .initError a with
    | ok => exact .accepted (readPosted_eq_ok_iff.1 hread)
    | error fault => exact .failed (readPosted_eq_error_iff.1 hread)
  · rintro (haccepts | hfails)
    · rw [readPosted_eq_ok_iff.2 haccepts]
      rfl
    · rw [(@readPosted_eq_error_iff .initError _ _).2 hfails]
      rfl

/-- The host is told in one post, unless there is no target for it. -/
theorem reject_spec (client : Client) (e : Fatal) (h : HostScript) (env : Environment)
    (p : ProcessState) :
    (∃ served post, reject client e h env p = ⟨env, served⟩ ∧ served.watch = .off ∧
      served.process = p ∧ TellsHost client e h.arrivals served post) ∨
    ∃ fault, Target.parse (client.target .initError) = .error fault ∧
      reject client e h env p = ⟨env, .off, [], some (.error (.request fault.message)), p⟩ := by
  have hlegal : Header.IsLegal "Runtime.InvalidConfig" := by decide
  rcases client.postFailure_spec .initError (.of Failure.invalidConfig e.message) with
    ⟨post, hpost, htarget, hreports⟩ | ⟨fault, hfault, hpost⟩
  · have hreject : reject client e h env p = ⟨env, .off, [post],
        (reject.answer? h.arrivals).map
          fun a => reject.told e (Client.readPosted .initError a), p⟩ := by
      rw [reject, Client.initError, hpost]
      rfl
    refine .inl ⟨_, post, hreject, rfl, rfl, ?_⟩
    exact {
      requests := rfl
      target := htarget
      body := hreports.body
      kind := hreports.kind.trans (if_pos hlegal)
      result := fun r => by
        simp only [Option.map_eq_some_iff, answer?_eq_some_iff, told_readPosted_iff] }
  · refine .inr ⟨fault, hfault, ?_⟩
    rw [reject, Client.initError, hpost]
    rfl

/-! ## Starts -/

theorem run_of_reject {s : Start} {env : Environment} {client : Client} {e : Fatal}
    (hplan : Plans env s.options.concurrency (.reject client e)) (h : HostScript)
    (p : ProcessState) : s.run env h p = reject client e h env p := by
  rw [run, hplan.plan_eq]

theorem served_run {s : Start} {env other : Environment} {h : HostScript} {p : ProcessState}
    (hplan : StartPlan.of (.ofEnvironment other) s.options.concurrency =
      StartPlan.of (.ofEnvironment env) s.options.concurrency) :
    (s.run other h p).served = (s.run env h p).served := by
  unfold run
  rw [hplan]
  cases StartPlan.of (.ofEnvironment env) s.options.concurrency with
  | handOff => rfl
  | giveUp => rfl
  | serve => rfl
  | reject client e =>
    simp only [reject]
    cases client.initError (.of Failure.invalidConfig e.message) <;> rfl

/-- What a start does.

The variables and the option say one thing that is to be done. If another program takes over, the
callbacks have run in their order, that program starts without the variable that named it, and the
host hears nothing. Without a host nothing happens at all. With a number in the options the variable
for it has no part in what is served, and there is always a worker. If the variable asks for no
number the host is told so in one post, the start ends with this error or with the one of the post,
and nothing else is asked of the host; where there is no target for the post, it is not made. -/
theorem run_decides (s : Start) (env : Environment) (h : HostScript) (p : ProcessState) :
    (∃! plan, Plans env s.options.concurrency plan) ∧
    (∀ wrapper, Plans env s.options.concurrency (.handOff wrapper) →
      (s.run env h p).served = ⟨.off, [], some (.error (.exec wrapper (s.refusal wrapper))),
        p.record (s.options.preExecCallbacks.map fun c => .called c.name)⟩ ∧
      (s.run env h p).environment wrapperVariable = none ∧
      ∀ name, name ≠ wrapperVariable → (s.run env h p).environment name =
        s.options.preExecCallbacks.foldl (fun env c => c.effect env) env name) ∧
    (∀ e, Plans env s.options.concurrency (.giveUp e) →
      s.run env h p = ⟨env, .off, [], some (.error e), p⟩) ∧
    (∀ client n, Plans env s.options.concurrency (.serve client n) →
      1 ≤ n ∧ ((Service.mk s.build client s.handler s.options n).crew p).workers.length = n ∧
      s.run env h p = ⟨env, (Service.mk s.build client s.handler s.options n).serve h p⟩) ∧
    (∀ client e, Plans env s.options.concurrency (.reject client e) →
      (∃ served post, s.run env h p = ⟨env, served⟩ ∧ served.watch = .off ∧ served.process = p ∧
        TellsHost client e h.arrivals served post) ∨
      ∃ fault, Target.parse (client.target .initError) = .error fault ∧
        s.run env h p = ⟨env, .off, [], some (.error (.request fault.message)), p⟩) ∧
    ∀ n other, s.options.concurrency = some n →
      (∀ name, name ≠ concurrencyVariable → other name = env name) →
      (s.run other h p).served = (s.run env h p).served := by
  refine ⟨?one, ?handOff, ?giveUp, ?serve, ?reject, ?option⟩
  case one =>
    exact ⟨_, plan_eq_iff.1 rfl, fun other hother => hother.plan_eq.symm⟩
  case handOff =>
    intro wrapper hplan
    have hrun : s.run env h p = s.handOff wrapper env p := by rw [run, hplan.plan_eq]
    have hvariables : ∀ name, (s.handOff wrapper env p).environment name =
        if name = wrapperVariable then none
        else s.options.preExecCallbacks.foldl (fun env c => c.effect env) env name := fun _ => rfl
    rw [hrun]
    refine ⟨rfl, ?_, fun name hname => ?_⟩
    · rw [hvariables, if_pos rfl]
    · rw [hvariables, if_neg hname]
  case giveUp =>
    intro e hplan
    rw [run, hplan.plan_eq]
    rfl
  case serve =>
    intro client n hplan
    have hone : 1 ≤ n := hplan.one_le
    refine ⟨hone, Service.length_workers hone p, ?_⟩
    rw [run, hplan.plan_eq]
  case reject =>
    intro client e hplan
    rw [run_of_reject hplan]
    exact reject_spec client e h env p
  case option =>
    intro n other hoption hother
    have hplan : Plans env s.options.concurrency _ := plan_eq_iff.1 rfl
    refine served_run ?_
    rw [hoption] at hplan ⊢
    exact (hplan.of_option hother).plan_eq

/-- A start with a function that returns nothing, and without options. -/
def idle : Start where
  build := ⟨false⟩
  handler := Adapter.configurable ⟨false⟩ (.unit fun p => (.returned .nothing, p))
  options := .default
  refusal := fun _ => "not found"

/-- The variables that ask for no worker, with a host at an address. -/
def noWorker (address : String) : Environment := fun name =>
  if name = apiVariable then some address
  else if name = concurrencyVariable then some "0"
  else none

theorem plans_noWorker {address : String} (h : address ≠ "") :
    Plans (noWorker address) none (.reject ⟨address⟩ (StartSettings.noNumber "0")) := by
  have hzero : Text.natural StartSettings.maxWorkers (Text.trim "0".toList) = .ok 0 := by
    decide +kernel
  refine .reject nofun ⟨rfl, h⟩ rfl ⟨rfl, by decide⟩ fun n hn => ?_
  obtain ⟨hread, hpositive⟩ := natural_trim_iff.2 hn
  rw [hzero] at hread
  cases hread
  exact absurd hpositive (by decide)

/-- Not every host is told in one post, and not every answer with the right status is heard. There is
no target with a space in its host, and an answer can break off. -/
theorem run_noWorker :
    Plans (noWorker "no host") none (.reject ⟨"no host"⟩ (StartSettings.noNumber "0")) ∧
    idle.run (noWorker "no host")
        ⟨.answered 200 [] (.ok []), [.answer (.answered 202 [] (.ok []))]⟩ (.start 0) =
      ⟨noWorker "no host", .off, [], some (.error (.request "invalid uri character")), .start 0⟩ ∧
    Plans (noWorker "host") none (.reject ⟨"host"⟩ (StartSettings.noNumber "0")) ∧
    (idle.run (noWorker "host")
        ⟨.answered 200 [] (.ok []), [.answer (.answered 202 [] (.error (.transfer "cut off")))]⟩
        (.start 0)).served.result =
      some (.error (.transfer "cut off")) := by
  have hspaced : Plans (noWorker "no host") idle.options.concurrency _ := plans_noWorker (by decide)
  have hnamed : Plans (noWorker "host") idle.options.concurrency _ := plans_noWorker (by decide)
  refine ⟨hspaced, ?spaced, hnamed, ?named⟩
  case spaced =>
    have hno : Target.parse ((⟨"no host"⟩ : Client).target .initError) = .error .character := by
      decide +kernel
    rw [run_of_reject hspaced]
    rcases reject_spec _ (StartSettings.noNumber "0") _ (noWorker "no host") (.start 0) with
      ⟨_, post, -, -, -, htells⟩ | ⟨fault, hfault, hrun⟩
    · rw [htells.target.target] at hno
      cases hno
    · rw [hno] at hfault
      cases hfault
      exact hrun
  case named =>
    have htarget : (Target.parse ((⟨"host"⟩ : Client).target .initError)).isOk = true := by
      decide +kernel
    rw [run_of_reject hnamed]
    rcases reject_spec _ (StartSettings.noNumber "0") _ (noWorker "host") (.start 0) with
      ⟨_, post, hrun, -, -, htells⟩ | ⟨fault, hfault, -⟩
    · rw [hrun]
      exact (htells.result _).2 ⟨_, .mk (List.nil_append _).symm nofun, .failed .body⟩
    · rw [hfault] at htarget
      cases htarget

end Start

end FunctionWorker
