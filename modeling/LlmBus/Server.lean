import LlmBus.Foundation.FormData
import LlmBus.Providers
import LlmBus.StoreSteps
import LlmBus.WebAuth

/-! # The policy page

One request against one store: the cost ledger and the policy table can be read, and one
endpoint writes. Every check of that endpoint answers with a response of its own or lets
an exception out of the handler. A page is known here by its status and its notice.
-/

namespace LlmBus

open Foundation

structure Request where
  method : Text
  path : Text
  headers : List (Text × Text)
  /-- The bytes that can be read from the body before it ends. -/
  stream : List Byte

/-- `headers.get(name)` -/
def Request.header (py : Interpreter) (r : Request) (name : String) : Option Text :=
  (r.headers.find? fun h => py.lower h.1 == py.lower (txt name)).map (·.2)

inductive Response where
  | page (status : Nat) (notice : Option Text)
  | error (status : Nat) (explain : Text)
  | challenge (realm : Text)
  deriving DecidableEq

def policyPath : Text := txt "/policy"

def pagePaths : List Text := [txt "/", txt "/index.html"]

def maxFormBytes : Nat := 4096

def basicRealm : Text := txt "llmbus policy"

/-- `connect` creates the tables that are missing. -/
def Database.connected (db : Database) : Database :=
  { db with workerPolicy := some (db.workerPolicy.getD newPolicyTable) }

/-- The handler's surroundings: the configured secret, the clock of the store, and an
exception the store raises instead of writing. -/
structure Handler where
  py : Interpreter
  secret : Option Text
  now : DateTime
  storeFault : Option PyError

namespace Handler

variable (h : Handler)

def requiredField (body : Text) (name : String) : Except PyError Text :=
  match strip (FormData.firstValue body (txt name)) with
  | [] => .error ⟨.valueError, txt "missing required field " ++ h.py.repr (txt name)⟩
  | raw => .ok raw

def parsePolicyForm (body : Text) : Except PyError (Text × Text × Text) := do
  let project ← h.requiredField body "project"
  let kind ← h.requiredField body "kind"
  let model ← h.requiredField body "model"
  if registered model then pure (project, kind, model)
  else throw ⟨.valueError,
    txt "model " ++ h.py.repr model ++ txt " is not registered with the bus"⟩

/-- `int(raw)` fails on what is not a number, and so does a negative one. -/
def parseContentLength : Option Text → Except PyError Nat
  | none => .ok 0
  | some raw =>
    match h.py.parseInt 10 raw with
    | none => .error ⟨.valueError, txt "invalid literal for int() with base 10: " ++ h.py.repr raw⟩
    | some (.ofNat n) => .ok n
    | some (.negSucc n) => .error ⟨.valueError,
        txt "negative Content-Length -" ++ decimalText (n + 1)⟩

def writePolicy (db : Database) (project kind model : Text) : Except PyError Unit × Database :=
  match h.storeFault with
  | some e => (.error e, db.connected)
  | none => db.connected.perform (setModelPolicy project kind model h.now)

/-- `_guard`: the reply it sent, or none where the caller may go on. -/
def guard (r : Request) : Except PyError (Option Response) :=
  match h.secret with
  | none => .ok (some (.error 503 (txt "policy page disabled: COSTS_AUTH_SECRET is not set")))
  | some secret =>
    match basicAuthOk h.py (r.header h.py "Authorization") (some secret) with
    | .error e => .error e
    | .ok true => .ok none
    | .ok false => .ok (some (.challenge basicRealm))

def doGet (db : Database) (r : Request) : Except PyError Response × Database :=
  if pagePaths.contains r.path then (.ok (.page 200 none), db.connected)
  else if r.path = policyPath then
    match h.guard r with
    | .error e => (.error e, db)
    | .ok (some reply) => (.ok reply, db)
    | .ok none => (.ok (.page 200 none), db.connected)
  else (.ok (.error 404 (txt "no such page")), db)

/-- What follows once the declared body has been read in full. -/
def submitForm (db : Database) (body : List Byte) : Except PyError Response × Database :=
  match h.parsePolicyForm (Utf8.decodeReplace body) with
  | .error e => (.ok (.page 400 (some e.message)), db.connected)
  | .ok (project, kind, model) =>
    match h.writePolicy db project kind model with
    | (.error e, db') => (.error e, db')
    | (.ok (), db') =>
      (.ok (.page 200 (some (project ++ txt "/" ++ kind ++ txt " now runs on " ++ model))), db')

def doPost (db : Database) (r : Request) : Except PyError Response × Database :=
  if r.path ≠ policyPath then (.ok (.error 404 (txt "no such page")), db)
  else
    match h.guard r with
    | .error e => (.error e, db)
    | .ok (some reply) => (.ok reply, db)
    | .ok none =>
      if originAllowed (r.header h.py "Origin") (r.header h.py "Host") = false then
        (.ok (.error 403 (txt "cross-origin write refused")), db)
      else
        match h.parseContentLength (r.header h.py "Content-Length") with
        | .error _ => (.ok (.error 400 (txt "malformed Content-Length")), db)
        | .ok length =>
          if maxFormBytes < length then (.ok (.error 413 (txt "form too large")), db)
          else if (r.stream.take length).length ≠ length then
            (.ok (.error 400 (txt "truncated request body")), db)
          else h.submitForm db (r.stream.take length)

def handle (db : Database) (r : Request) : Except PyError Response × Database :=
  if r.method = txt "GET" then h.doGet db r
  else if r.method = txt "POST" then h.doPost db r
  else (.ok (.error 501 (txt "Unsupported method (" ++ h.py.repr r.method ++ txt ")")), db)

end Handler

/-! ### The write gate -/

/-- Everything the endpoint asks of a request before it writes, and what it then writes. -/
structure WriteAdmitted (h : Handler) (r : Request) (project kind model : Text) : Prop where
  method : r.method = txt "POST"
  path : r.path = policyPath
  authorized : ∃ secret, h.secret = some secret ∧
    basicAuthOk h.py (r.header h.py "Authorization") (some secret) = .ok true
  origin : originAllowed (r.header h.py "Origin") (r.header h.py "Host") = true
  body : ∃ n, h.parseContentLength (r.header h.py "Content-Length") = .ok n ∧ n ≤ maxFormBytes ∧
    n ≤ r.stream.length ∧
    strip (FormData.firstValue (Utf8.decodeReplace (r.stream.take n)) (txt "project")) = project ∧
    strip (FormData.firstValue (Utf8.decodeReplace (r.stream.take n)) (txt "kind")) = kind ∧
    strip (FormData.firstValue (Utf8.decodeReplace (r.stream.take n)) (txt "model")) = model
  project_nonblank : project ≠ []
  kind_nonblank : kind ≠ []
  model_registered : registered model = true

def Database.policyRows (db : Database) : List (List (Text × SqlValue)) :=
  db.workerPolicy.elim [] (·.rows)

namespace Handler

variable (h : Handler)

@[simp] theorem connected_policyRows (db : Database) : db.connected.policyRows = db.policyRows := by
  unfold Database.connected Database.policyRows
  cases db.workerPolicy with
  | none => rfl
  | some table => rfl

theorem requiredField_eq_ok_iff {body value : Text} {name : String} :
    h.requiredField body name = .ok value ↔
      strip (FormData.firstValue body (txt name)) = value ∧ value ≠ [] := by
  unfold requiredField
  split
  · rename_i hBlank
    rw [hBlank]
    constructor
    · intro hOk
      cases hOk
    · rintro ⟨rfl, hNonblank⟩
      exact absurd rfl hNonblank
  · rename_i hFound
    constructor
    · intro hOk
      cases hOk
      exact ⟨rfl, hFound⟩
    · rintro ⟨rfl, _⟩
      rfl

theorem parsePolicyForm_eq_ok_iff {body project kind model : Text} :
    h.parsePolicyForm body = .ok (project, kind, model) ↔
      (strip (FormData.firstValue body (txt "project")) = project ∧ project ≠ []) ∧
      (strip (FormData.firstValue body (txt "kind")) = kind ∧ kind ≠ []) ∧
      (strip (FormData.firstValue body (txt "model")) = model ∧ model ≠ []) ∧
      registered model = true := by
  simp only [parsePolicyForm, bind_eq_ok_iff, requiredField_eq_ok_iff]
  constructor
  · rintro ⟨p, hProject, k, hKind, m, hModel, hLast⟩
    split at hLast
    · rename_i hRegistered
      cases hLast
      exact ⟨hProject, hKind, hModel, hRegistered⟩
    · cases hLast
  · rintro ⟨hProject, hKind, hModel, hRegistered⟩
    refine ⟨project, hProject, kind, hKind, model, hModel, ?_⟩
    rw [if_pos hRegistered]
    rfl

theorem model_ne_nil_of_registered {model : Text} (h : registered model = true) : model ≠ [] := by
  rintro rfl
  revert h
  decide

theorem guard_eq_ok_none_iff {r : Request} :
    h.guard r = .ok none ↔ ∃ secret, h.secret = some secret ∧
      basicAuthOk h.py (r.header h.py "Authorization") (some secret) = .ok true := by
  unfold guard
  cases h.secret with
  | none => simp
  | some secret =>
    simp only [Option.some.injEq, exists_eq_left']
    cases basicAuthOk h.py (r.header h.py "Authorization") (some secret) with
    | error e => simp
    | ok b => cases b <;> simp

/-! ### How a POST is answered -/

/-- The form is read: `length` bytes of it. -/
structure ReadsForm (r : Request) (length : Nat) : Prop where
  method : r.method = txt "POST"
  path : r.path = policyPath
  authorized : ∃ secret, h.secret = some secret ∧
    basicAuthOk h.py (r.header h.py "Authorization") (some secret) = .ok true
  origin : originAllowed (r.header h.py "Origin") (r.header h.py "Host") = true
  declared : h.parseContentLength (r.header h.py "Content-Length") = .ok length
  small : length ≤ maxFormBytes

/-- The endpoint is asked for, and not with its password. -/
def Denied (r : Request) : Prop :=
  r.path = policyPath ∧ ∃ secret, h.secret = some secret ∧
    basicAuthOk h.py (r.header h.py "Authorization") (some secret) = .ok false

/-- The answers to a POST whose form is not read. -/
inductive TurnsAway (r : Request) : Except PyError Response → Prop where
  | raises (e : PyError) (hNot : ¬ h.Denied r) : TurnsAway r (.error e)
  | refuses (code : Nat) (message : Text) (hNot : ¬ h.Denied r) :
      TurnsAway r (.ok (.error code message))
  | challenges (hDenied : h.Denied r) : TurnsAway r (.ok (.challenge basicRealm))

theorem not_denied_of_guard {r : Request} (hGuard : ∀ reply, h.guard r = .ok (some reply) →
    reply ≠ .challenge basicRealm) : ¬ h.Denied r := by
  rintro ⟨-, secret, hSecret, hDenied⟩
  refine hGuard (.challenge basicRealm) ?_ rfl
  simp only [guard, hSecret, hDenied]

theorem turnsAway_of_guard {r : Request} {reply : Response} (hPath : r.path = policyPath)
    (hGuard : h.guard r = .ok (some reply)) : h.TurnsAway r (.ok reply) := by
  have hReply := hGuard
  unfold guard at hReply
  cases hSecret : h.secret with
  | none =>
    rw [hSecret] at hReply
    cases hReply
    refine .refuses 503 _ (h.not_denied_of_guard fun other hOther => ?_)
    rw [hGuard] at hOther
    cases hOther
    exact nofun
  | some secret =>
    rw [hSecret] at hReply
    simp only at hReply
    split at hReply
    · cases hReply
    · cases hReply
    · rename_i hDenied
      cases hReply
      exact .challenges ⟨hPath, secret, hSecret, hDenied⟩

theorem not_readsForm_of_guard {r : Request} (hGuard : h.guard r ≠ .ok none) (length : Nat) :
    ¬ h.ReadsForm r length :=
  fun hReads => hGuard (h.guard_eq_ok_none_iff.mpr hReads.authorized)

/-- A POST whose form is read is answered by what its bytes say; any other one is turned away
whatever follows its head. -/
theorem doPost_cases (db : Database) {r : Request} (hPost : r.method = txt "POST") :
    (∃ length, h.ReadsForm r length ∧ ∀ stream, h.doPost db { r with stream } =
        if (stream.take length).length ≠ length then
          (.ok (.error 400 (txt "truncated request body")), db)
        else h.submitForm db (stream.take length)) ∨
      (∀ length, ¬ h.ReadsForm r length) ∧ ∃ reply,
        (∀ stream, h.doPost db { r with stream } = (reply, db)) ∧ h.TurnsAway r reply := by
  have hGuardSame : ∀ stream, h.guard { r with stream } = h.guard r := fun _ => rfl
  have hHeaderSame : ∀ stream name, Request.header h.py { r with stream } name =
    r.header h.py name := fun _ _ => rfl
  simp only [doPost, hGuardSame, hHeaderSame]
  rcases eq_or_ne r.path policyPath with hPath | hPath
  swap
  · refine .inr ⟨fun _ hReads => hPath hReads.path, _, fun _ => if_pos hPath, ?_⟩
    exact .refuses _ _ fun hDenied => hPath hDenied.1
  simp only [hPath, ne_eq, not_true_eq_false, if_false]
  cases hGuard : h.guard r with
  | error e =>
    refine .inr ⟨h.not_readsForm_of_guard (by rw [hGuard]; exact nofun), _, fun _ => rfl, ?_⟩
    exact .raises e (h.not_denied_of_guard (by rw [hGuard]; exact nofun))
  | ok reply =>
    cases reply with
    | some response =>
      refine .inr ⟨h.not_readsForm_of_guard (by rw [hGuard]; exact nofun), _, fun _ => rfl, ?_⟩
      exact h.turnsAway_of_guard hPath hGuard
    | none =>
      have hNotDenied : ¬ h.Denied r := h.not_denied_of_guard (by rw [hGuard]; exact nofun)
      simp only
      cases hOrigin : originAllowed (r.header h.py "Origin") (r.header h.py "Host") with
      | false =>
        refine .inr ⟨fun _ hReads => ?_, _, fun _ => if_pos rfl, .refuses _ _ hNotDenied⟩
        rw [hReads.origin] at hOrigin
        cases hOrigin
      | true =>
        simp only [Bool.true_eq_false, if_false]
        cases hLength : h.parseContentLength (r.header h.py "Content-Length") with
        | error e =>
          refine .inr ⟨fun _ hReads => ?_, _, fun _ => rfl, .refuses _ _ hNotDenied⟩
          rw [hReads.declared] at hLength
          cases hLength
        | ok length =>
          cases Nat.lt_or_ge maxFormBytes length with
          | inl hLarge =>
            refine .inr ⟨fun _ hReads => ?_, _, fun _ => if_pos hLarge, .refuses _ _ hNotDenied⟩
            rw [hReads.declared] at hLength
            cases hLength
            exact absurd hLarge (Nat.not_lt.mpr hReads.small)
          | inr hSmall =>
            refine .inl ⟨length, ?_, fun _ => if_neg (Nat.not_lt.mpr hSmall)⟩
            exact ⟨hPost, hPath, h.guard_eq_ok_none_iff.mp hGuard, hOrigin, hLength, hSmall⟩

/-! ### What becomes of the store -/

theorem exists_readsForm_of_admitted {r : Request} {project kind model : Text}
    (hAdmitted : WriteAdmitted h r project kind model) : ∃ length, h.ReadsForm r length := by
  obtain ⟨length, hLength, hSmall, _⟩ := hAdmitted.body
  exact ⟨length, hAdmitted.method, hAdmitted.path, hAdmitted.authorized, hAdmitted.origin, hLength,
    hSmall⟩

/-- The form of an admitted request, as the endpoint comes to read it. -/
theorem form_of_admitted {r : Request} {project kind model : Text}
    (hAdmitted : WriteAdmitted h r project kind model) {length : Nat}
    (hLength : h.parseContentLength (r.header h.py "Content-Length") = .ok length) :
    length ≤ r.stream.length ∧
      h.parsePolicyForm (Utf8.decodeReplace (r.stream.take length)) = .ok (project, kind, model) := by
  obtain ⟨n, hN, _, hAvailable, hProject, hKind, hModel⟩ := hAdmitted.body
  rw [hLength] at hN
  cases hN
  refine ⟨hAvailable, h.parsePolicyForm_eq_ok_iff.mpr ?_⟩
  exact ⟨⟨hProject, hAdmitted.project_nonblank⟩, ⟨hKind, hAdmitted.kind_nonblank⟩,
    ⟨hModel, model_ne_nil_of_registered hAdmitted.model_registered⟩, hAdmitted.model_registered⟩

theorem submitForm_of_ok {db : Database} {bytes : List Byte} {project kind model : Text}
    (hForm : h.parsePolicyForm (Utf8.decodeReplace bytes) = .ok (project, kind, model)) :
    (h.submitForm db bytes).2 = (h.writePolicy db project kind model).2 := by
  rw [submitForm, hForm]
  simp only
  rcases h.writePolicy db project kind model with ⟨outcome, db'⟩
  cases outcome with
  | error e => rfl
  | ok u => rfl

theorem submitForm_of_error {db : Database} {bytes : List Byte} {e : PyError}
    (hForm : h.parsePolicyForm (Utf8.decodeReplace bytes) = .error e) :
    (h.submitForm db bytes).2 = db.connected := by
  rw [submitForm, hForm]

theorem doGet_snd (db : Database) (r : Request) :
    (h.doGet db r).2 = db ∨ (h.doGet db r).2 = db.connected := by
  unfold doGet
  split
  · exact .inr rfl
  split
  · cases h.guard r with
    | error e => exact .inl rfl
    | ok reply =>
      cases reply with
      | none => exact .inr rfl
      | some response => exact .inl rfl
  · exact .inl rfl

/-- What becomes of the store: the form of an admitted request is submitted, and without one
the tables stay as they are. -/
def Gated (db : Database) (r : Request) (after : Database) : Prop :=
  (∃ project kind model, WriteAdmitted h r project kind model ∧
      after = (h.writePolicy db project kind model).2) ∨
    (∀ project kind model, ¬ WriteAdmitted h r project kind model) ∧
      (after = db ∨ after = db.connected)

theorem doPost_gated (db : Database) {r : Request} (hPost : r.method = txt "POST") :
    h.Gated db r (h.doPost db r).2 := by
  rcases h.doPost_cases db hPost with ⟨length, hReads, hSame⟩ | ⟨hNot, reply, hSame, -⟩
  swap
  · refine .inr ⟨fun _ _ _ hAdmitted => ?_, .inl (congrArg Prod.snd (hSame r.stream))⟩
    obtain ⟨length, hReads⟩ := h.exists_readsForm_of_admitted hAdmitted
    exact hNot length hReads
  rw [show h.doPost db r = _ from hSame r.stream]
  split
  · rename_i hShort
    refine .inr ⟨fun _ _ _ hAdmitted => ?_, .inl rfl⟩
    exact hShort (List.length_take_of_le (h.form_of_admitted hAdmitted hReads.declared).1)
  rename_i hFull
  have hAvailable : length ≤ r.stream.length := by
    rw [not_not, List.length_take] at hFull
    omega
  cases hForm : h.parsePolicyForm (Utf8.decodeReplace (r.stream.take length)) with
  | error e =>
    refine .inr ⟨fun _ _ _ hAdmitted => ?_, .inr (h.submitForm_of_error hForm)⟩
    have hOk := (h.form_of_admitted hAdmitted hReads.declared).2
    rw [hForm] at hOk
    cases hOk
  | ok fields =>
    obtain ⟨project, kind, model⟩ := fields
    obtain ⟨hProject, hKind, hModel, hRegistered⟩ := h.parsePolicyForm_eq_ok_iff.mp hForm
    refine .inl ⟨project, kind, model, ?_, h.submitForm_of_ok hForm⟩
    exact
      { method := hReads.method
        path := hReads.path
        authorized := hReads.authorized
        origin := hReads.origin
        body := ⟨length, hReads.declared, hReads.small, hAvailable, hProject.1, hKind.1, hModel.1⟩
        project_nonblank := hProject.2
        kind_nonblank := hKind.2
        model_registered := hRegistered }

theorem handle_gated (db : Database) (r : Request) : h.Gated db r (h.handle db r).2 := by
  unfold handle
  split
  · rename_i hGet
    refine .inr ⟨fun _ _ _ hAdmitted => ?_, h.doGet_snd db r⟩
    rw [hAdmitted.method] at hGet
    revert hGet
    decide
  split
  · rename_i hPost
    exact h.doPost_gated db hPost
  · rename_i hPost
    exact .inr ⟨fun _ _ _ hAdmitted => hPost hAdmitted.method, .inl rfl⟩

theorem writePolicy_cases (db : Database) (project kind model : Text) :
    (∃ e, h.writePolicy db project kind model = (.error e, db.connected)) ∨
      h.writePolicy db project kind model = (.ok (), { db.connected with
        modelPolicy := db.modelPolicy.upsert ⟨project, kind, model, h.now⟩
          ModelPolicy.replacedBy ModelPolicy.key_replacedBy }) := by
  unfold writePolicy
  cases h.storeFault with
  | some e => exact .inl ⟨e, rfl⟩
  | none =>
    exact perform_setModelPolicy_cases db.connected project kind model h.now

theorem writePolicy_keeps (db : Database) (project kind model : Text) :
    (h.writePolicy db project kind model).2.jobs = db.jobs ∧
      (h.writePolicy db project kind model).2.policyRows = db.policyRows ∧
      ((h.writePolicy db project kind model).1 ≠ .ok () →
        (h.writePolicy db project kind model).2.modelPolicy = db.modelPolicy) := by
  rcases h.writePolicy_cases db project kind model with ⟨e, hFailed⟩ | hDone
  · rw [hFailed]
    exact ⟨rfl, connected_policyRows db, fun _ => rfl⟩
  · rw [hDone]
    exact ⟨rfl, connected_policyRows db, fun hNe => absurd rfl hNe⟩

theorem writePolicy_sets {db : Database} {project kind model : Text}
    (hDone : (h.writePolicy db project kind model).1 = .ok ()) :
    (h.writePolicy db project kind model).2.modelPolicy.find (project, kind) =
        some ⟨project, kind, model, h.now⟩ ∧
      ∀ key, key ≠ (project, kind) →
        (h.writePolicy db project kind model).2.modelPolicy.find key = db.modelPolicy.find key := by
  rcases h.writePolicy_cases db project kind model with ⟨e, hFailed⟩ | hWritten
  · rw [hFailed] at hDone
    cases hDone
  · rw [hWritten]
    let row : ModelPolicy := ⟨project, kind, model, h.now⟩
    refine ⟨?_, fun key hKey => ?_⟩
    · refine (KeyedTable.find_upsert_self (r := row) ModelPolicy.key_replacedBy).trans
        (congrArg some ?_)
      cases hOld : db.modelPolicy.find row.key with
      | none => rfl
      | some old =>
        have hKey : old.key = row.key := KeyedTable.key_of_find hOld
        obtain ⟨hProject, hKind⟩ := Prod.mk.inj hKey
        simp only [row, ModelPolicy.replacedBy, hProject, hKind]
    · exact KeyedTable.find_upsert_of_ne (r := row) ModelPolicy.key_replacedBy hKey

theorem writeAdmitted_unique {r : Request} {p k m p' k' m' : Text}
    (hAdmitted : WriteAdmitted h r p k m) (hAdmitted' : WriteAdmitted h r p' k' m') :
    p = p' ∧ k = k' ∧ m = m' := by
  obtain ⟨n, hN, _, _, rfl, rfl, rfl⟩ := hAdmitted.body
  obtain ⟨n', hN', _, _, rfl, rfl, rfl⟩ := hAdmitted'.body
  rw [hN] at hN'
  cases hN'
  exact ⟨rfl, rfl, rfl⟩

/-- Only an admitted request writes, and it sets the one row its form names; nothing else
in the store changes, whatever is asked. -/
theorem write_gate (db : Database) (r : Request) :
    (∀ project kind model, WriteAdmitted h r project kind model →
        (h.writePolicy db project kind model).1 = .ok () →
        (h.handle db r).2.modelPolicy.find (project, kind) =
            some ⟨project, kind, model, h.now⟩ ∧
          ∀ key, key ≠ (project, kind) →
            (h.handle db r).2.modelPolicy.find key = db.modelPolicy.find key) ∧
      (∀ project kind model, WriteAdmitted h r project kind model →
        (h.writePolicy db project kind model).1 ≠ .ok () →
        (h.handle db r).2.modelPolicy = db.modelPolicy) ∧
      ((∀ project kind model, ¬ WriteAdmitted h r project kind model) →
        (h.handle db r).2.modelPolicy = db.modelPolicy) ∧
      (h.handle db r).2.jobs = db.jobs ∧
      (h.handle db r).2.policyRows = db.policyRows := by
  rcases h.handle_gated db r with ⟨project, kind, model, hAdmitted, hWritten⟩ | ⟨hNone, hSame⟩
  · rw [hWritten]
    obtain ⟨hJobs, hRows, hFailed⟩ := h.writePolicy_keeps db project kind model
    refine ⟨?_, ?_, fun hNone => absurd hAdmitted (hNone _ _ _), hJobs, hRows⟩
    · intro project' kind' model' hAdmitted' hDone
      obtain ⟨rfl, rfl, rfl⟩ := h.writeAdmitted_unique hAdmitted hAdmitted'
      exact h.writePolicy_sets hDone
    · intro project' kind' model' hAdmitted' hNotDone
      obtain ⟨rfl, rfl, rfl⟩ := h.writeAdmitted_unique hAdmitted hAdmitted'
      exact hFailed hNotDone
  · have hKeeps : (h.handle db r).2.modelPolicy = db.modelPolicy ∧
        (h.handle db r).2.jobs = db.jobs ∧ (h.handle db r).2.policyRows = db.policyRows := by
      cases hSame with
      | inl hSame =>
        rw [hSame]
        exact ⟨rfl, rfl, rfl⟩
      | inr hSame =>
        rw [hSame]
        exact ⟨rfl, rfl, connected_policyRows db⟩
    exact ⟨fun p k m hAdmitted => absurd hAdmitted (hNone p k m),
      fun p k m hAdmitted => absurd hAdmitted (hNone p k m), fun _ => hKeeps.1, hKeeps.2⟩

theorem write_gate_admitted :
    let h : Handler := ⟨.ascii, some (txt "s"), .startOf newYear2026, none⟩
    let r : Request := ⟨txt "POST", txt "/policy",
      [(txt "authorization", txt "Basic OnM="), (txt "Content-Length", txt "35")],
      (txt "project=demo&kind=+chat&model=gpt-5").map fun c => Fin.ofNat 256 c.val⟩
    (h.handle .empty r).2.modelPolicy.find (txt "demo", txt "chat") =
      some ⟨txt "demo", txt "chat", txt "gpt-5", .startOf newYear2026⟩ := by
  intro h r
  refine ((h.write_gate .empty r).1 (txt "demo") (txt "chat") (txt "gpt-5") ?_ ?_).1
  · exact
      { method := rfl
        path := rfl
        authorized := ⟨txt "s", rfl, by decide +kernel⟩
        origin := by decide +kernel
        body := ⟨35, by decide +kernel, by decide +kernel, by decide +kernel, by decide +kernel,
          by decide +kernel, by decide +kernel⟩
        project_nonblank := by decide
        kind_nonblank := by decide
        model_registered := by decide +kernel }
  · rfl

end Handler

end LlmBus
