import LlmBus.Foundation.Answers
import LlmBus.CostsBind
import LlmBus.Processing
import LlmBus.RateLimit

/-! # The settings of a worker

What the worker is told comes out of the environment, setting by setting, and is checked
as it is read: a worker either has every setting it needs in a form it can use, or it
stops at the first that is missing or wrong.
-/

namespace LlmBus

open Foundation Interaction

/-- A parser of settings asks for `env.get(key, "")`. -/
abbrev settingsInterface : Interface where
  Op := Text
  Reply _ := Text

abbrev Settings := Program settingsInterface ConfigError

/-- A double that `float` makes of a text. -/
structure Binary64 where
  value : Double
  lt : ∀ q, value = .finite q → q < doubleOverflow

/-- The readers of numbers that the interpreter has. -/
structure NumberReaders where
  py : Interpreter
  parseFloat : Text → Option Binary64

structure PositiveFloat where
  value : ℚ
  pos : 0 < value
  lt : value < doubleOverflow

structure PositiveInt where
  value : Nat
  pos : 0 < value

/-! ### One setting -/

def require (key : Text) : Settings Text :=
  .ask key fun raw : Text =>
    if strip raw = [] then .fail ⟨txt "missing required setting " ++ key⟩ else .ret (strip raw)

def optional (key : Text) : Settings (Option Text) :=
  .ask key fun raw : Text => .ret (if strip raw = [] then none else some (strip raw))

section Readers

variable (r : NumberReaders)

def notANumber (key raw : Text) : ConfigError :=
  ⟨txt "setting " ++ key ++ txt " must be a number, got " ++ r.py.repr raw⟩

def notPositiveFinite (key : Text) (value : Double) : ConfigError :=
  ⟨txt "setting " ++ key ++ txt " must be a positive finite number, got " ++ r.py.floatText value⟩

def toPositiveFloat (key raw : Text) : Except ConfigError PositiveFloat :=
  match r.parseFloat raw with
  | none => .error (notANumber r key raw)
  | some x =>
    match hValue : x.value with
    | .finite q => if hPos : 0 < q then .ok ⟨q, hPos, x.lt q hValue⟩ else .error (notPositiveFinite r key x.value)
    | _ => .error (notPositiveFinite r key x.value)

def positiveFloat (key : Text) : Settings PositiveFloat := do
  let raw ← require key
  Program.ofExcept (toPositiveFloat r key raw)

theorem toNat_pos {n : ℤ} (h : 0 < n) : 0 < n.toNat :=
  Int.lt_toNat.mpr h

def toPositiveInt (key raw : Text) : Except ConfigError PositiveInt :=
  match r.py.parseInt 10 raw with
  | none => .error ⟨txt "setting " ++ key ++ txt " must be an integer, got " ++ r.py.repr raw⟩
  | some n =>
    if hPos : 0 < n then .ok ⟨n.toNat, toNat_pos hPos⟩
    else .error ⟨txt "setting " ++ key ++ txt " must be a positive integer, got " ++ intText n⟩

def positiveInt (key : Text) : Settings PositiveInt := do
  let raw ← require key
  Program.ofExcept (toPositiveInt r key raw)

/-! ### The whole configuration -/

def providerLimits (name : Text) : Settings ProviderLimits := do
  let requests ← positiveFloat r (name ++ txt "_RPM")
  let tokens ← positiveFloat r (name ++ txt "_TPM")
  pure ⟨requests.value, tokens.value, requests.pos, tokens.pos, requests.lt, tokens.lt⟩

structure Config where
  openaiApiKey : Text
  anthropicApiKey : Text
  rateLimits : List (Text × ProviderLimits)
  iggyAddress : Text
  iggyUsername : Text
  iggyPassword : Text
  dbPath : Text
  callbackSecret : Option Text

def parseConfig : Settings Config := do
  let openaiApiKey ← require (txt "OPENAI_API_KEY")
  let anthropicApiKey ← require (txt "ANTHROPIC_API_KEY")
  let openaiLimits ← providerLimits r (txt "OPENAI")
  let anthropicLimits ← providerLimits r (txt "ANTHROPIC")
  let iggyAddress ← require (txt "IGGY_ADDRESS")
  let iggyUsername ← require (txt "IGGY_USERNAME")
  let iggyPassword ← require (txt "IGGY_PASSWORD")
  let dbPath ← require (txt "STORE_PATH")
  let callbackSecret ← optional (txt "WORKER_CALLBACK_SECRET")
  pure ⟨openaiApiKey, anthropicApiKey, [(openai, openaiLimits), (anthropic, anthropicLimits)],
    iggyAddress, iggyUsername, iggyPassword, dbPath, callbackSecret⟩

theorem PositiveFloat.not_le_zero (x : PositiveFloat) :
    (Double.finite x.value).le (.finite 0) = false := by
  simpa using x.pos

theorem not_lt_of_not {a b : Double} (h : ¬ a.lt b = true) : a.lt b = false :=
  Bool.eq_false_of_not_eq_true h

/-- `RetryPolicy(…)`, whose own check is raised as a `ConfigError`. -/
def retryPolicy (maxAttempts : PositiveInt) (baseDelayS maxDelayS : PositiveFloat) :
    Except ConfigError RetryPolicy :=
  if hLess : (Double.finite maxDelayS.value).lt (.finite baseDelayS.value) = true then
    .error ⟨txt "max_delay_s must be at least base_delay_s"⟩
  else
    .ok ⟨maxAttempts.value, .finite baseDelayS.value, .finite maxDelayS.value, maxAttempts.pos,
      baseDelayS.not_le_zero, not_lt_of_not hLess⟩

/-- The three settings of a retry policy, under their own names for each use. -/
def retrySettings (attempts base cap : Text) : Settings RetryPolicy := do
  let maxAttempts ← positiveInt r attempts
  let baseDelayS ← positiveFloat r base
  let maxDelayS ← positiveFloat r cap
  Program.ofExcept (retryPolicy maxAttempts baseDelayS maxDelayS)

def parseWorkerPolicy : Settings WorkerPolicy := do
  let retry ← retrySettings r (txt "WORKER_MAX_ATTEMPTS") (txt "WORKER_BACKOFF_BASE_S")
    (txt "WORKER_BACKOFF_MAX_S")
  let jobTimeoutS ← positiveFloat r (txt "WORKER_JOB_TIMEOUT_S")
  let defaultOutputTokens ← positiveInt r (txt "WORKER_DEFAULT_OUTPUT_TOKENS")
  pure ⟨retry, .finite jobTimeoutS.value, defaultOutputTokens.value, jobTimeoutS.not_le_zero⟩

def parseConnectPolicy : Settings RetryPolicy :=
  retrySettings r (txt "WORKER_CONNECT_MAX_ATTEMPTS") (txt "WORKER_CONNECT_BACKOFF_BASE_S")
    (txt "WORKER_CONNECT_BACKOFF_MAX_S")

/-- `_load` of the worker. -/
def load : Settings (Config × WorkerPolicy × RetryPolicy) := do
  let config ← parseConfig r
  let policy ← parseWorkerPolicy r
  let connectPolicy ← parseConnectPolicy r
  pure (config, policy, connectPolicy)

end Readers

/-- The parser on an environment. -/
def Environment.parse {α : Type} (env : Environment) (p : Settings α) : Except ConfigError α :=
  answered (fun key : Text => (env.lookup key).getD []) p

/-! ### What the worker complains about -/

section Complaints

variable (r : NumberReaders)

/-- What every key stands for: its value, or nothing. -/
abbrev Values := Text → Text

def missing (key : Text) (env : Values) : Option ConfigError :=
  if strip (env key) = [] then some ⟨txt "missing required setting " ++ key⟩ else none

def wrongFloat (key : Text) (env : Values) : Option ConfigError :=
  (missing key env).or (errorOf (toPositiveFloat r key (strip (env key))))

def wrongInt (key : Text) (env : Values) : Option ConfigError :=
  (missing key env).or (errorOf (toPositiveInt r key (strip (env key))))

/-- The delays are in order, where both are numbers. -/
def wrongOrder (base cap : Text) (env : Values) : Option ConfigError :=
  match toPositiveFloat r base (strip (env base)), toPositiveFloat r cap (strip (env cap)) with
  | .ok baseDelayS, .ok maxDelayS =>
    if maxDelayS.value < baseDelayS.value then
      some ⟨txt "max_delay_s must be at least base_delay_s"⟩
    else none
  | _, _ => none

def configComplaints : List (Values → Option ConfigError) :=
  [missing (txt "OPENAI_API_KEY"), missing (txt "ANTHROPIC_API_KEY"),
    wrongFloat r (txt "OPENAI_RPM"), wrongFloat r (txt "OPENAI_TPM"),
    wrongFloat r (txt "ANTHROPIC_RPM"), wrongFloat r (txt "ANTHROPIC_TPM"),
    missing (txt "IGGY_ADDRESS"), missing (txt "IGGY_USERNAME"), missing (txt "IGGY_PASSWORD"),
    missing (txt "STORE_PATH")]

def retryComplaints (attempts base cap : Text) : List (Values → Option ConfigError) :=
  [wrongInt r attempts, wrongFloat r base, wrongFloat r cap, wrongOrder r base cap]

def policyComplaints : List (Values → Option ConfigError) :=
  retryComplaints r (txt "WORKER_MAX_ATTEMPTS") (txt "WORKER_BACKOFF_BASE_S")
      (txt "WORKER_BACKOFF_MAX_S") ++
    [wrongFloat r (txt "WORKER_JOB_TIMEOUT_S"), wrongInt r (txt "WORKER_DEFAULT_OUTPUT_TOKENS")]

def connectComplaints : List (Values → Option ConfigError) :=
  retryComplaints r (txt "WORKER_CONNECT_MAX_ATTEMPTS") (txt "WORKER_CONNECT_BACKOFF_BASE_S")
    (txt "WORKER_CONNECT_BACKOFF_MAX_S")

/-- The first complaint of a list. -/
def firstComplaint (complaints : List (Values → Option ConfigError)) (env : Values) :
    Option ConfigError :=
  complaints.findSome? fun complaint => complaint env

variable (env : Values)

theorem firstComplaint_cons (complaint : Values → Option ConfigError)
    (rest : List (Values → Option ConfigError)) :
    firstComplaint (complaint :: rest) env = (complaint env).or (firstComplaint rest env) := by
  rw [firstComplaint, List.findSome?_cons]
  cases complaint env with
  | none => rfl
  | some e => rfl

theorem firstComplaint_append (first rest : List (Values → Option ConfigError)) :
    firstComplaint (first ++ rest) env = (firstComplaint first env).or (firstComplaint rest env) := by
  rw [firstComplaint, List.findSome?_append]
  rfl

theorem failureOf_require (key : Text) : failureOf env (require key) = missing key env := by
  unfold failureOf require missing
  rw [answered_ask]
  split
  · rfl
  · rfl

theorem answered_require {key raw : Text} (h : answered env (require key) = .ok raw) :
    raw = strip (env key) := by
  unfold require at h
  rw [answered_ask] at h
  split at h
  · cases h
  · cases h
    rfl

theorem failureOf_andThen {α β : Type} {p : Settings α} {f : α → Settings β}
    {next : Option ConfigError}
    (h : ∀ a, answered env p = .ok a → failureOf env (f a) = next) :
    failureOf env (p >>= f) = (failureOf env p).or next :=
  @failureOf_bind settingsInterface ConfigError α β env p f next h

theorem failureOf_positiveFloat (key : Text) :
    failureOf env (positiveFloat r key) = wrongFloat r key env := by
  rw [wrongFloat, ← failureOf_require]
  refine failureOf_andThen env fun raw hRaw => ?_
  rw [answered_require env hRaw, failureOf_ofExcept]

theorem failureOf_positiveInt (key : Text) :
    failureOf env (positiveInt r key) = wrongInt r key env := by
  rw [wrongInt, ← failureOf_require]
  refine failureOf_andThen env fun raw hRaw => ?_
  rw [answered_require env hRaw, failureOf_ofExcept]

theorem answered_positiveFloat {key : Text} {x : PositiveFloat}
    (h : answered env (positiveFloat r key) = .ok x) :
    toPositiveFloat r key (strip (env key)) = .ok x := by
  unfold positiveFloat at h
  rw [Program.bind_eq, answered_bind] at h
  obtain ⟨raw, hRaw, hRead⟩ := bind_eq_ok_iff.mp h
  rw [answered_ofExcept, answered_require env hRaw] at hRead
  exact hRead

theorem errorOf_retryPolicy (maxAttempts : PositiveInt) (base cap : PositiveFloat) :
    errorOf (retryPolicy maxAttempts base cap) =
      if cap.value < base.value then some ⟨txt "max_delay_s must be at least base_delay_s"⟩
      else none := by
  unfold retryPolicy
  by_cases hLess : cap.value < base.value
  · rw [dif_pos (by simpa using hLess), if_pos hLess]
    rfl
  · rw [dif_neg (by simpa using hLess), if_neg hLess]
    rfl

theorem failureOf_retrySettings (attempts base cap : Text) :
    failureOf env (retrySettings r attempts base cap) =
      firstComplaint (retryComplaints r attempts base cap) env := by
  simp only [retryComplaints, firstComplaint_cons, ← failureOf_positiveInt, ← failureOf_positiveFloat]
  refine failureOf_andThen env fun maxAttempts _ => ?_
  refine failureOf_andThen env fun baseDelayS hBase => ?_
  refine failureOf_andThen env fun maxDelayS hCap => ?_
  rw [failureOf_ofExcept, errorOf_retryPolicy, wrongOrder, answered_positiveFloat r env hBase,
    answered_positiveFloat r env hCap]
  exact Option.or_none.symm

theorem failureOf_providerLimits (name : Text) :
    failureOf env (providerLimits r name) =
      (wrongFloat r (name ++ txt "_RPM") env).or (wrongFloat r (name ++ txt "_TPM") env) := by
  rw [← failureOf_positiveFloat, ← failureOf_positiveFloat]
  refine failureOf_andThen env fun requests _ => ?_
  refine (failureOf_andThen env fun tokens _ => ?_).trans Option.or_none
  rfl

theorem failureOf_parseConfig :
    failureOf env (parseConfig r) = firstComplaint (configComplaints r) env := by
  have hOpenaiRpm : txt "OPENAI" ++ txt "_RPM" = txt "OPENAI_RPM" := by decide
  have hOpenaiTpm : txt "OPENAI" ++ txt "_TPM" = txt "OPENAI_TPM" := by decide
  have hAnthropicRpm : txt "ANTHROPIC" ++ txt "_RPM" = txt "ANTHROPIC_RPM" := by decide
  have hAnthropicTpm : txt "ANTHROPIC" ++ txt "_TPM" = txt "ANTHROPIC_TPM" := by decide
  have hOpenai := failureOf_providerLimits r env (txt "OPENAI")
  have hAnthropic := failureOf_providerLimits r env (txt "ANTHROPIC")
  rw [hOpenaiRpm, hOpenaiTpm] at hOpenai
  rw [hAnthropicRpm, hAnthropicTpm] at hAnthropic
  simp only [configComplaints, firstComplaint_cons, ← failureOf_require]
  refine failureOf_andThen env fun openaiApiKey _ => ?_
  refine failureOf_andThen env fun anthropicApiKey _ => ?_
  rw [← Option.or_assoc, ← hOpenai]
  refine failureOf_andThen env fun openaiLimits _ => ?_
  rw [← Option.or_assoc, ← hAnthropic]
  refine failureOf_andThen env fun anthropicLimits _ => ?_
  refine failureOf_andThen env fun iggyAddress _ => ?_
  refine failureOf_andThen env fun iggyUsername _ => ?_
  refine failureOf_andThen env fun iggyPassword _ => ?_
  refine failureOf_andThen env fun dbPath _ => ?_
  rfl

theorem failureOf_parseWorkerPolicy :
    failureOf env (parseWorkerPolicy r) = firstComplaint (policyComplaints r) env := by
  rw [policyComplaints, firstComplaint_append, ← failureOf_retrySettings]
  refine failureOf_andThen env fun retry _ => ?_
  simp only [firstComplaint_cons, ← failureOf_positiveInt, ← failureOf_positiveFloat]
  refine failureOf_andThen env fun jobTimeoutS _ => ?_
  refine failureOf_andThen env fun defaultOutputTokens _ => ?_
  rfl

/-! ### What the worker reads, and what it gets -/

def loadKeys : List Text :=
  [txt "OPENAI_API_KEY", txt "ANTHROPIC_API_KEY", txt "OPENAI_RPM", txt "OPENAI_TPM",
    txt "ANTHROPIC_RPM", txt "ANTHROPIC_TPM", txt "IGGY_ADDRESS", txt "IGGY_USERNAME",
    txt "IGGY_PASSWORD", txt "STORE_PATH", txt "WORKER_CALLBACK_SECRET", txt "WORKER_MAX_ATTEMPTS",
    txt "WORKER_BACKOFF_BASE_S", txt "WORKER_BACKOFF_MAX_S", txt "WORKER_JOB_TIMEOUT_S",
    txt "WORKER_DEFAULT_OUTPUT_TOKENS", txt "WORKER_CONNECT_MAX_ATTEMPTS",
    txt "WORKER_CONNECT_BACKOFF_BASE_S", txt "WORKER_CONNECT_BACKOFF_MAX_S"]

/-- The parser reads these settings and no others. -/
def Reads {α : Type} (keys : List Text) (p : Settings α) : Prop :=
  Every (fun key : Text => key ∈ keys) (fun _ => True) p

variable {keys : List Text}

theorem Reads.bind {α β : Type} {p : Settings α} {f : α → Settings β} (h : Reads keys p)
    (hf : ∀ a, Reads keys (f a)) : Reads keys (p >>= f) :=
  Every.bind h fun a _ => hf a

theorem reads_pure {α : Type} (a : α) : Reads keys (pure a : Settings α) :=
  trivial

theorem reads_ofExcept {α : Type} (x : Except ConfigError α) :
    Reads keys (Program.ofExcept x : Settings α) :=
  every_ofExcept fun _ _ => trivial

theorem reads_require {key : Text} (h : key ∈ keys) : Reads keys (require key) := by
  refine ⟨h, fun raw => ?_⟩
  by_cases hBlank : strip raw = []
  · simp only [hBlank, if_true]
    trivial
  · simp only [hBlank, if_false]
    trivial

theorem reads_optional {key : Text} (h : key ∈ keys) : Reads keys (optional key) :=
  ⟨h, fun _ => trivial⟩

theorem reads_positiveFloat {key : Text} (h : key ∈ keys) : Reads keys (positiveFloat r key) :=
  (reads_require h).bind fun _ => reads_ofExcept _

theorem reads_positiveInt {key : Text} (h : key ∈ keys) : Reads keys (positiveInt r key) :=
  (reads_require h).bind fun _ => reads_ofExcept _

theorem reads_providerLimits {name : Text} (hRequests : name ++ txt "_RPM" ∈ keys)
    (hTokens : name ++ txt "_TPM" ∈ keys) : Reads keys (providerLimits r name) :=
  (reads_positiveFloat r hRequests).bind fun _ => (reads_positiveFloat r hTokens).bind fun _ =>
    reads_pure _

theorem reads_retrySettings {attempts base cap : Text} (hAttempts : attempts ∈ keys)
    (hBase : base ∈ keys) (hCap : cap ∈ keys) : Reads keys (retrySettings r attempts base cap) :=
  (reads_positiveInt r hAttempts).bind fun _ => (reads_positiveFloat r hBase).bind fun _ =>
    (reads_positiveFloat r hCap).bind fun _ => reads_ofExcept _

theorem reads_parseConfig : Reads loadKeys (parseConfig r) :=
  (reads_require (by decide)).bind fun _ => (reads_require (by decide)).bind fun _ =>
    (reads_providerLimits r (by decide) (by decide)).bind fun _ =>
      (reads_providerLimits r (by decide) (by decide)).bind fun _ =>
        (reads_require (by decide)).bind fun _ => (reads_require (by decide)).bind fun _ =>
          (reads_require (by decide)).bind fun _ => (reads_require (by decide)).bind fun _ =>
            (reads_optional (by decide)).bind fun _ => reads_pure _

theorem reads_load : Reads loadKeys (load r) :=
  (reads_parseConfig r).bind fun _ =>
    ((reads_retrySettings r (by decide) (by decide) (by decide)).bind fun _ =>
      (reads_positiveFloat r (by decide)).bind fun _ => (reads_positiveInt r (by decide)).bind fun _ =>
        reads_pure _).bind fun _ =>
      (reads_retrySettings r (by decide) (by decide) (by decide)).bind fun _ => reads_pure _

theorem failureOf_load :
    failureOf env (load r) =
      firstComplaint (configComplaints r ++ policyComplaints r ++ connectComplaints r) env := by
  rw [firstComplaint_append, firstComplaint_append, ← failureOf_parseConfig,
    ← failureOf_parseWorkerPolicy, connectComplaints, ← failureOf_retrySettings, Option.or_assoc]
  refine failureOf_andThen env fun config _ => ?_
  refine failureOf_andThen env fun policy _ => ?_
  refine (failureOf_andThen env fun connectPolicy _ => ?_).trans Option.or_none
  rfl

end Complaints

/-- The worker's settings, against any environment: what is raised is the first complaint in the
order in which the settings are read, nothing is raised where there is none, and settings that are
not its own make no difference. -/
theorem load_complains (r : NumberReaders) (env : Environment) :
    errorOf (env.parse (load r)) =
        firstComplaint (configComplaints r ++ policyComplaints r ++ connectComplaints r)
          (fun key => (env.lookup key).getD []) ∧
      ∀ env' : Environment, (∀ key ∈ loadKeys, env.lookup key = env'.lookup key) →
        env.parse (load r) = env'.parse (load r) := by
  refine ⟨failureOf_load r _, fun env' hSame => ?_⟩
  refine answered_congr (reads_load r) fun key hKey => ?_
  rw [hSame key hKey]

end LlmBus
