import Mathlib.Data.List.Nodup
import LlmBus.Foundation.Inet
import LlmBus.Schema

/-! # Where the cost page listens

Hosts and port come from the command line or, field by field, from the environment, and
pass the same checks. The page has no authentication, so these checks are the access
control.
-/

namespace LlmBus

open Foundation Foundation.Inet

structure ConfigError where
  message : Text
  deriving DecidableEq

structure CostsBind where
  hosts : List Text
  port : ℤ
  deriving DecidableEq

abbrev Environment := List (Text × Text)

/-- `env.get(key, "")` -/
def Environment.get (env : Environment) (key : String) : Text :=
  (env.lookup (txt key)).getD []

def defaultCostsHost : Text := txt "127.0.0.1"

def defaultCostsPort : ℤ := 8093

def wildcardHosts : List Text := [[], txt "0.0.0.0", txt "::"]

/-- `dict.fromkeys`: each key once, where it first stood. -/
def fromKeys (keys : List Text) : List Text :=
  keys.foldl (fun seen key => if key ∈ seen then seen else seen ++ [key]) []

variable (py : Interpreter)

def wildcardRefused (host : Text) : ConfigError :=
  ⟨txt "cost report host " ++ py.repr host ++ txt (" binds every interface; the page has no " ++
    "authentication, so 0.0.0.0 and :: are refused (§11)")⟩

def validateCostsHosts (hosts : List Text) : Except ConfigError (List Text) :=
  match hosts.find? fun host => wildcardHosts.contains (strip host) with
  | some host => .error (wildcardRefused py host)
  | none => .ok (fromKeys (hosts.map strip))

def intText (n : ℤ) : Text :=
  (if n < 0 then txt "-" else []) ++ decimalText n.natAbs

def validateCostsPort (port : ℤ) : Except ConfigError ℤ :=
  if 1 ≤ port ∧ port ≤ 65535 then .ok port
  else .error ⟨txt "setting COSTS_PORT must be a valid port, got " ++ intText port⟩

def costsPort (env : Environment) : Except ConfigError ℤ :=
  match strip (env.get "COSTS_PORT") with
  | [] => .ok defaultCostsPort
  | raw =>
    match py.parseInt 10 raw with
    | none => .error ⟨txt "setting COSTS_PORT must be an integer, got " ++ py.repr raw⟩
    | some port => validateCostsPort port

/-- The entries of `COSTS_BIND_HOSTS`, blank ones dropped. -/
def envHosts (env : Environment) : List Text :=
  ((env.get "COSTS_BIND_HOSTS").splitOn 0x2C).filter fun part => !(strip part).isEmpty

def parseCostsBind (env : Environment) : Except ConfigError CostsBind := do
  let hosts ← validateCostsHosts py (envHosts env)
  let port ← costsPort py env
  pure ⟨if hosts.isEmpty then [defaultCostsHost] else hosts, port⟩

def resolveBind (env : Environment) (hosts : Option (List Text)) (port : Option ℤ) :
    Except ConfigError CostsBind := do
  let configured ← parseCostsBind py env
  let hosts ← (match hosts with
    | none | some [] => pure configured.hosts
    | some flags => validateCostsHosts py flags)
  let port ← (match port with
    | none => pure configured.port
    | some flag => validateCostsPort flag)
  pure ⟨hosts, port⟩

/-! ### What passes the checks -/

theorem foldl_fromKeys {keys seen : List Text} (h : seen.Nodup) :
    (keys.foldl (fun seen key => if key ∈ seen then seen else seen ++ [key]) seen).Nodup ∧
      ∀ key, key ∈ keys.foldl (fun seen key => if key ∈ seen then seen else seen ++ [key]) seen ↔
        key ∈ seen ∨ key ∈ keys := by
  induction keys generalizing seen with
  | nil => simpa using h
  | cons first rest ih =>
    rw [List.foldl_cons]
    by_cases hSeen : first ∈ seen
    · rw [if_pos hSeen]
      refine ⟨(ih h).1, fun key => ?_⟩
      rw [(ih h).2, List.mem_cons]
      constructor
      · rintro (hKey | hKey)
        · exact .inl hKey
        · exact .inr (.inr hKey)
      · rintro (hKey | rfl | hKey)
        · exact .inl hKey
        · exact .inl hSeen
        · exact .inr hKey
    · rw [if_neg hSeen]
      have hNodup : (seen ++ [first]).Nodup :=
        h.append (List.nodup_singleton first) (by simpa using hSeen)
      refine ⟨(ih hNodup).1, fun key => ?_⟩
      rw [(ih hNodup).2, List.mem_append, List.mem_singleton, List.mem_cons, or_assoc]

theorem nodup_fromKeys (keys : List Text) : (fromKeys keys).Nodup :=
  (foldl_fromKeys List.nodup_nil).1

theorem mem_fromKeys {keys : List Text} {key : Text} : key ∈ fromKeys keys ↔ key ∈ keys := by
  simp [fromKeys, (foldl_fromKeys List.nodup_nil).2]

theorem fromKeys_ne_nil {keys : List Text} (h : keys ≠ []) : fromKeys keys ≠ [] := by
  obtain ⟨key, hKey⟩ := List.exists_mem_of_ne_nil keys h
  exact List.ne_nil_of_mem (mem_fromKeys.mpr hKey)

/-- The three spellings that the guard knows. -/
def Literal (host : Text) : Prop :=
  strip host ∈ wildcardHosts

instance (host : Text) : Decidable (Literal host) :=
  inferInstanceAs (Decidable (_ ∈ _))

theorem validateCostsHosts_eq_ok_iff {hosts kept : List Text} :
    validateCostsHosts py hosts = .ok kept ↔
      (∀ host ∈ hosts, ¬ Literal host) ∧ kept = fromKeys (hosts.map strip) := by
  unfold validateCostsHosts
  cases hFind : hosts.find? fun host => wildcardHosts.contains (strip host) with
  | some host =>
    have hFound := List.find?_some hFind
    have hLiteral : Literal host := List.contains_iff_mem.mp hFound
    have hMem := List.mem_of_find?_eq_some hFind
    simp only [reduceCtorEq, false_iff, not_and]
    exact fun hNone => absurd hLiteral (hNone host hMem)
  | none =>
    have hNone : ∀ host ∈ hosts, ¬ Literal host := by
      intro host hMem hLiteral
      exact List.find?_eq_none.mp hFind host hMem (List.contains_iff_mem.mpr hLiteral)
    constructor
    · intro h
      exact ⟨hNone, (Except.ok.inj h).symm⟩
    · rintro ⟨_, rfl⟩
      rfl

def ValidPort (port : ℤ) : Prop :=
  1 ≤ port ∧ port ≤ 65535

instance (port : ℤ) : Decidable (ValidPort port) :=
  inferInstanceAs (Decidable (_ ∧ _))

theorem validateCostsPort_eq_ok_iff {port kept : ℤ} :
    validateCostsPort port = .ok kept ↔ ValidPort port ∧ kept = port := by
  unfold validateCostsPort
  split
  · rename_i hPort
    simp [ValidPort, hPort, eq_comm]
  · rename_i hPort
    simp [ValidPort, hPort]

/-- The text of the setting is a port, or there is none. -/
def ValidPortText (raw : Text) : Prop :=
  raw = [] ∨ ∃ port, py.parseInt 10 raw = some port ∧ ValidPort port

theorem costsPort_valid {env : Environment} {port : ℤ} (h : costsPort py env = .ok port) :
    ValidPort port := by
  unfold costsPort at h
  split at h
  · rw [← Except.ok.inj h]
    decide
  · split at h
    · cases h
    · obtain ⟨hPort, rfl⟩ := validateCostsPort_eq_ok_iff.mp h
      exact hPort

theorem exists_costsPort_iff {env : Environment} :
    (∃ port, costsPort py env = .ok port) ↔ ValidPortText py (strip (env.get "COSTS_PORT")) := by
  unfold costsPort
  cases strip (env.get "COSTS_PORT") with
  | nil => simp [ValidPortText]
  | cons c rest =>
    cases hParse : py.parseInt 10 (c :: rest) with
    | none => simp [ValidPortText, hParse]
    | some parsed => simp [ValidPortText, hParse, validateCostsPort_eq_ok_iff]

variable (net : Resolver)

/-- What the page may listen on, if the call returns. -/
def Bounded : Except ConfigError CostsBind → Prop
  | .error _ => True
  | .ok bind => ValidPort bind.port ∧ bind.hosts ≠ [] ∧ bind.hosts.Nodup ∧
      ∀ host ∈ bind.hosts, net.bindAddress host ≠ some 0

/-- The hosts that the caller or, without any, the environment asks for. -/
def askedHosts (env : Environment) : Option (List Text) → List Text
  | none => envHosts env
  | some [] => envHosts env
  | some (host :: more) => host :: more

/-- Something the checks do not let pass; the environment is checked even where a flag
replaces it. -/
def Refused (env : Environment) (hosts : Option (List Text)) (port : Option ℤ) : Prop :=
  (∃ host ∈ envHosts env, Literal host) ∨
  ¬ ValidPortText py (strip (env.get "COSTS_PORT")) ∨
  (∃ host ∈ askedHosts env hosts, Literal host) ∨
  ∃ flag, port = some flag ∧ ¬ ValidPort flag

/-- The hosts that come back, in order and each once. -/
def keptHosts (asked : List Text) : List Text :=
  if asked = [] then [defaultCostsHost] else fromKeys (asked.map strip)

theorem askedHosts_of_ne_nil {env : Environment} {flags : List Text} (h : flags ≠ []) :
    askedHosts env (some flags) = flags := by
  cases flags with
  | nil => exact absurd rfl h
  | cons host more => rfl

theorem keptHosts_of_valid {asked kept : List Text} (h : validateCostsHosts py asked = .ok kept) :
    (if kept.isEmpty then [defaultCostsHost] else kept) = keptHosts asked := by
  obtain ⟨_, rfl⟩ := (validateCostsHosts_eq_ok_iff py).mp h
  rw [keptHosts]
  by_cases hAsked : asked = []
  · rw [hAsked]
    rfl
  · have hKept : fromKeys (asked.map strip) ≠ [] := fromKeys_ne_nil (by simpa using hAsked)
    rw [if_neg hAsked, if_neg (by simpa using hKept)]

theorem parseCostsBind_eq_ok_iff {env : Environment} {bound : CostsBind} :
    parseCostsBind py env = .ok bound ↔
      (∀ host ∈ envHosts env, ¬ Literal host) ∧ costsPort py env = .ok bound.port ∧
        bound.hosts = keptHosts (envHosts env) := by
  unfold parseCostsBind
  simp only [bind_eq_ok_iff, pure, Except.pure, Except.ok.injEq]
  constructor
  · rintro ⟨kept, hHosts, port, hPort, rfl⟩
    exact ⟨((validateCostsHosts_eq_ok_iff py).mp hHosts).1, hPort, keptHosts_of_valid py hHosts⟩
  · rintro ⟨hNone, hPort, hKept⟩
    have hHosts := (validateCostsHosts_eq_ok_iff py).mpr ⟨hNone, rfl⟩
    refine ⟨_, hHosts, bound.port, hPort, ?_⟩
    rw [keptHosts_of_valid py hHosts, ← hKept]

theorem exists_parseCostsBind_iff {env : Environment} :
    (∃ bound, parseCostsBind py env = .ok bound) ↔
      (∀ host ∈ envHosts env, ¬ Literal host) ∧ ValidPortText py (strip (env.get "COSTS_PORT")) := by
  simp only [parseCostsBind_eq_ok_iff, ← exists_costsPort_iff]
  constructor
  · rintro ⟨bound, hNone, hPort, _⟩
    exact ⟨hNone, bound.port, hPort⟩
  · rintro ⟨hNone, port, hPort⟩
    exact ⟨⟨keptHosts (envHosts env), port⟩, hNone, hPort, rfl⟩

/-- What a call returns: the hosts asked for, or the default, and a port in range. -/
theorem resolveBind_ok {env : Environment} {hosts : Option (List Text)} {port : Option ℤ}
    {bound : CostsBind} (h : resolveBind py env hosts port = .ok bound) :
    ¬ Refused py env hosts port ∧ bound.hosts = keptHosts (askedHosts env hosts) ∧
      ValidPort bound.port := by
  obtain ⟨configured, hConfigured, hFields⟩ := bind_eq_ok_iff.mp h
  obtain ⟨kept, hHosts, hFields⟩ := bind_eq_ok_iff.mp hFields
  obtain ⟨chosen, hPort, hBound⟩ := bind_eq_ok_iff.mp hFields
  obtain rfl := Except.ok.inj hBound
  obtain ⟨hEnvNone, hEnvText⟩ := (exists_parseCostsBind_iff py).mp ⟨configured, hConfigured⟩
  obtain ⟨_, hEnvPort, hEnvHosts⟩ := (parseCostsBind_eq_ok_iff py).mp hConfigured
  have hAsked : (∀ host ∈ askedHosts env hosts, ¬ Literal host) ∧
      kept = keptHosts (askedHosts env hosts) := by
    split at hHosts
    · exact ⟨hEnvNone, (Except.ok.inj hHosts).symm.trans hEnvHosts⟩
    · exact ⟨hEnvNone, (Except.ok.inj hHosts).symm.trans hEnvHosts⟩
    · rename_i flags hFlags
      obtain ⟨hNone, hKept⟩ := (validateCostsHosts_eq_ok_iff py).mp hHosts
      rw [askedHosts_of_ne_nil hFlags, keptHosts, if_neg hFlags]
      exact ⟨hNone, hKept⟩
  have hChosen : (∀ flag, port = some flag → ValidPort flag) ∧ ValidPort chosen := by
    cases port with
    | none =>
      rw [← Except.ok.inj hPort]
      exact ⟨fun flag hFlag => (nomatch hFlag), costsPort_valid py hEnvPort⟩
    | some flag =>
      obtain ⟨hValid, rfl⟩ := validateCostsPort_eq_ok_iff.mp hPort
      exact ⟨fun other hOther => Option.some.inj hOther ▸ hValid, hValid⟩
  refine ⟨?_, hAsked.2, hChosen.2⟩
  rintro (⟨host, hHost, hLiteral⟩ | hText | ⟨host, hHost, hLiteral⟩ | ⟨flag, hFlag, hBad⟩)
  · exact hEnvNone host hHost hLiteral
  · exact hText hEnvText
  · exact hAsked.1 host hHost hLiteral
  · exact hBad (hChosen.1 flag hFlag)

theorem exists_resolveBind {env : Environment} {hosts : Option (List Text)} {port : Option ℤ}
    (h : ¬ Refused py env hosts port) : ∃ bound, resolveBind py env hosts port = .ok bound := by
  simp only [Refused, not_or, not_exists, not_and, not_not] at h
  obtain ⟨hEnvNone, hEnvText, hNone, hFlag⟩ := h
  obtain ⟨configured, hConfigured⟩ := (exists_parseCostsBind_iff py).mpr ⟨hEnvNone, hEnvText⟩
  unfold resolveBind
  simp only [hConfigured, bind_eq_ok_iff]
  have hPort : ∃ chosen, (match port with
      | none => pure configured.port
      | some flag => validateCostsPort flag : Except ConfigError ℤ) = .ok chosen := by
    cases port with
    | none => exact ⟨configured.port, rfl⟩
    | some flag => exact ⟨flag, validateCostsPort_eq_ok_iff.mpr ⟨hFlag flag rfl, rfl⟩⟩
  obtain ⟨chosen, hChosen⟩ := hPort
  split
  · exact ⟨_, configured, rfl, configured.hosts, rfl, chosen, hChosen, rfl⟩
  · exact ⟨_, configured, rfl, configured.hosts, rfl, chosen, hChosen, rfl⟩
  · rename_i flags hFlags
    rw [askedHosts_of_ne_nil hFlags] at hNone
    have hKept := (validateCostsHosts_eq_ok_iff py).mpr ⟨hNone, rfl⟩
    exact ⟨_, configured, rfl, _, hKept, chosen, hChosen, rfl⟩

theorem keptHosts_ne_nil (asked : List Text) : keptHosts asked ≠ [] := by
  rw [keptHosts]
  split
  · simp
  · rename_i hAsked
    exact fromKeys_ne_nil (by simpa using hAsked)

theorem nodup_keptHosts (asked : List Text) : (keptHosts asked).Nodup := by
  rw [keptHosts]
  split
  · exact List.nodup_singleton _
  · exact nodup_fromKeys _

theorem not_wild_defaultCostsHost : ¬ net.Wild defaultCostsHost := by
  rintro ⟨name, hName, hWild⟩
  have hSame : net.encoded defaultCostsHost = some defaultCostsHost := by
    have hAscii : asciiText defaultCostsHost = true := by decide
    have hZero : (!defaultCostsHost.contains 0) = true := by decide
    rw [Resolver.encoded, if_pos hAscii, Option.filter_some, if_pos hZero]
  obtain rfl := Option.some.inj (hSame.symm.trans hName)
  have hNumber : inetAton defaultCostsHost ≠ none := by decide
  rcases hWild with hEmpty | hZero | ⟨_, hNone, _⟩
  · revert hEmpty
    decide
  · revert hZero
    decide
  · exact hNumber hNone

theorem forall_keptHosts_iff {asked : List Text} :
    (∀ host ∈ keptHosts asked, net.bindAddress host ≠ some 0) ↔
      ∀ host ∈ asked, ¬ net.Wild (strip host) := by
  simp only [ne_eq, Resolver.bindAddress_eq_zero_iff]
  rw [keptHosts]
  split
  · rename_i hNone
    simp [hNone, not_wild_defaultCostsHost]
  · simp [mem_fromKeys]

/-- The page stays off the wildcard exactly when no host asked for is, once trimmed,
another spelling of it or a name for it, or else the call is refused on other grounds. -/
theorem resolveBind_bounded_iff (env : Environment) (hosts : Option (List Text)) (port : Option ℤ) :
    Bounded net (resolveBind py env hosts port) ↔
      Refused py env hosts port ∨ ∀ host ∈ askedHosts env hosts, ¬ net.Wild (strip host) := by
  by_cases hRefused : Refused py env hosts port
  · refine iff_of_true ?_ (.inl hRefused)
    cases hBound : resolveBind py env hosts port with
    | error refusal => trivial
    | ok bound => exact absurd hRefused (resolveBind_ok py hBound).1
  · obtain ⟨bound, hBound⟩ := exists_resolveBind py hRefused
    obtain ⟨_, hHosts, hPort⟩ := resolveBind_ok py hBound
    rw [hBound, or_iff_right hRefused, ← forall_keptHosts_iff, ← hHosts]
    constructor
    · rintro ⟨_, _, _, hOff⟩
      exact hOff
    · intro hOff
      refine ⟨hPort, ?_, ?_, hOff⟩
      · rw [hHosts]
        exact keptHosts_ne_nil _
      · rw [hHosts]
        exact nodup_keptHosts _

/-- One zero is the wildcard, and passes. -/
theorem resolveBind_binds_every_interface :
    ¬ ∀ (py : Interpreter) (net : Resolver) (env : Environment) (hosts : Option (List Text))
      (port : Option ℤ), Bounded net (resolveBind py env hosts port) := by
  intro hClaim
  have hBound : resolveBind .ascii [] (some [txt "0"]) none = .ok ⟨[txt "0"], 8093⟩ := by
    decide
  have hOff := hClaim .ascii ⟨some, fun _ => none⟩ [] (some [txt "0"]) none
  rw [hBound] at hOff
  exact hOff.2.2.2 (txt "0") (by decide) (by decide)

end LlmBus
