import LlmBus.Foundation.Observation
import LlmBus.Framing
import LlmBus.PolicyPage

/-! # What a peer without the password is shown

Every answer on a connection, pages included, while anybody else writes to the store in
between. A peer that never presents the password is answered from its own bytes, the clock
and the job rows alone.
-/

namespace LlmBus

open Foundation Foundation.Markup Foundation.Grouping Foundation.Observation

/-- `list_model_policies`, `ORDER BY project, kind`. -/
def Database.listModelPolicies (db : Database) : List ModelPolicy :=
  sortOn (fun p : ModelPolicy => (toLex (p.project, p.kind) : Text ×ₗ Text)) db.modelPolicy.rows

/-- `render_page` -/
def renderPage (db : Database) (generatedAt : DateTime) (storePath : Text) : Option Html :=
  renderDashboard (summarize db.costByProjectDay) generatedAt storePath

/-- `render_policy_view` -/
def renderPolicyView (db : Database) (generatedAt : DateTime) (notice : Option Text) : Html :=
  renderPolicyPage db.listModelPolicies generatedAt notice

/-- What stands when a request comes in: the store as everybody has left it, the clocks, and
what goes wrong. -/
structure Circumstances where
  moment : Moment
  db : Database
  generatedAt : DateTime
  /-- What comes up where a page cannot be rendered. -/
  renderFault : PyError

/-- The body that goes with a reply; only a page has one that is made from the store. -/
def bodyOf (storePath : Text) (v : Circumstances) (after : Database) (path : Text) :
    Response → Option Html
  | .page _ notice =>
    if pagePaths.contains path then renderPage after v.generatedAt storePath
    else some (renderPolicyView after v.generatedAt notice)
  | .error _ _ => some []
  | .challenge _ => some []

/-- An exchange with the page that it sent. -/
structure Shown where
  exchange : Exchange
  body : Html

namespace CostHandler

variable (c : CostHandler) (storePath : Text)

/-- The body of the answer; `none` where it cannot be rendered. -/
def render (v : Circumstances) (r : Request) : Option Html :=
  match (c.at v.moment).handle v.db r with
  | (.ok reply, after) => bodyOf storePath v after r.path reply
  | (.error _, _) => some []

/-- A page that cannot be rendered is an exception before anything is sent. -/
def momentOf (v : Circumstances) (r : Request) : Moment :=
  match c.render storePath v r with
  | some _ => v.moment
  | none => { v.moment with replyFault := some (v.moment.replyFault.getD v.renderFault) }

def visit (v : Circumstances) (start : List Byte) : Visited (List Byte) Shown :=
  match Http.parseRequest c.py start with
  | .request head rest =>
    let r : Request := ⟨head.method, head.path, head.headers, rest⟩
    let e := c.exchange (c.momentOf storePath v r) v.db start head rest
    some (⟨e, if e.reply.isOk then (c.render storePath v r).getD [] else []⟩,
      if e.closed then none else some e.left)
  | .refused _ => none
  | .ended => none

/-- What the peer of one connection is shown. -/
def shows : List Circumstances → List Byte → List Shown :=
  watch (c.visit storePath)

end CostHandler

/-! ### Verdicts that do not tell two secrets apart -/

section Verdicts

variable {s s' : Text} (hs : asciiText s = true) (hs' : asciiText s' = true)
include hs hs'

theorem compareDigest_same {password : Text} (h : compareDigest password s ≠ .ok true)
    (h' : compareDigest password s' ≠ .ok true) :
    compareDigest password s = compareDigest password s' := by
  unfold compareDigest at h h' ⊢
  cases hAscii : asciiText password with
  | false => rfl
  | true =>
    rw [hAscii, hs] at h
    rw [hAscii, hs'] at h'
    rw [hs, hs']
    cases hMatch : password == s with
    | true =>
      rw [hMatch] at h
      exact absurd rfl h
    | false =>
      cases hMatch' : password == s' with
      | true =>
        rw [hMatch'] at h'
        exact absurd rfl h'
      | false => rfl

theorem credentialsMatch_same {encoded : Text} (h : credentialsMatch encoded s ≠ .ok true)
    (h' : credentialsMatch encoded s' ≠ .ok true) :
    credentialsMatch encoded s = credentialsMatch encoded s' := by
  unfold credentialsMatch at h h' ⊢
  cases hDecode : Base64.decode encoded with
  | error e => cases e <;> rfl
  | ok bytes =>
    simp only [hDecode] at h h' ⊢
    cases hText : Utf8.decode bytes with
    | none => rfl
    | some decoded =>
      simp only [hText] at h h' ⊢
      split
      · rename_i hSeparator
        rw [if_pos hSeparator] at h h'
        exact compareDigest_same hs hs' h h'
      · rfl

theorem basicAuthOk_same (py : Interpreter) {header : Option Text}
    (h : basicAuthOk py header (some s) ≠ .ok true) (h' : basicAuthOk py header (some s') ≠ .ok true) :
    basicAuthOk py header (some s) = basicAuthOk py header (some s') := by
  cases header with
  | none => rfl
  | some header =>
    simp only [basicAuthOk] at h h' ⊢
    split
    · rfl
    · rename_i hScheme
      rw [if_neg hScheme] at h h'
      split
      · rfl
      · rename_i hThere
        rw [if_neg hThere] at h h'
        exact credentialsMatch_same hs hs' h h'

end Verdicts

/-! ### A request that does not get past the guard -/

namespace Handler

theorem guard_ne_page (h : Handler) (r : Request) (status : Nat) (notice : Option Text) :
    h.guard r ≠ .ok (some (.page status notice)) := by
  unfold guard
  cases h.secret with
  | none => exact fun hSame => by cases hSame
  | some secret =>
    simp only
    split <;> exact fun hSame => by cases hSame

variable {h h' : Handler} {r : Request}

theorem doGet_of_guard (hGuard : h'.guard r = h.guard r) (hOut : h.guard r ≠ .ok none) (db db' : Database) :
    (h'.doGet db' r).1 = (h.doGet db r).1 ∧
      ∀ status notice, (h.doGet db r).1 = .ok (.page status notice) → pagePaths.contains r.path = true := by
  unfold doGet
  rw [hGuard]
  split
  · rename_i hPage
    exact ⟨rfl, fun _ _ _ => hPage⟩
  split
  · rcases hReply : h.guard r with e | reply
    · exact ⟨rfl, fun _ _ hPage => by cases hPage⟩
    · cases reply with
      | none => exact absurd hReply hOut
      | some reply =>
        refine ⟨rfl, fun status notice hPage => ?_⟩
        cases hPage
        exact absurd hReply (h.guard_ne_page r status notice)
  · exact ⟨rfl, fun _ _ hPage => by cases hPage⟩

theorem doPost_of_guard (hGuard : h'.guard r = h.guard r) (hOut : h.guard r ≠ .ok none)
    (db db' : Database) :
    (h'.doPost db' r).1 = (h.doPost db r).1 ∧ (h.doPost db r).2 = db ∧
      ∀ status notice, (h.doPost db r).1 ≠ .ok (.page status notice) := by
  unfold doPost
  rw [hGuard]
  split
  · exact ⟨rfl, rfl, fun _ _ hPage => by cases hPage⟩
  · rcases hReply : h.guard r with e | reply
    · exact ⟨rfl, rfl, fun _ _ hPage => by cases hPage⟩
    · cases reply with
      | none => exact absurd hReply hOut
      | some reply =>
        refine ⟨rfl, rfl, fun status notice hPage => ?_⟩
        cases hPage
        exact h.guard_ne_page r status notice hReply

/-- The answer is made without a look at the store, and where it is a page, it is the ledger's. -/
theorem handle_of_guard (hPy : h'.py = h.py) (hGuard : h'.guard r = h.guard r)
    (hOut : h.guard r ≠ .ok none) (db db' : Database) :
    (h'.handle db' r).1 = (h.handle db r).1 ∧
      ((h.handle db r).2 = db ∨ (h.handle db r).2 = db.connected) ∧
      ∀ status notice, (h.handle db r).1 = .ok (.page status notice) → pagePaths.contains r.path = true := by
  unfold handle
  rw [hPy]
  split
  · obtain ⟨hSame, hPage⟩ := doGet_of_guard hGuard hOut db db'
    exact ⟨hSame, h.doGet_snd db r, hPage⟩
  split
  · obtain ⟨hSame, hStill, hNoPage⟩ := doPost_of_guard hGuard hOut db db'
    exact ⟨hSame, .inl hStill, fun status notice hPage => absurd hPage (hNoPage status notice)⟩
  · exact ⟨rfl, .inl rfl, fun _ _ hPage => by cases hPage⟩

theorem bodyRead_of_guard (hOut : h.guard r ≠ .ok none) : h.bodyRead r = 0 :=
  if_neg fun hAsked => hOut hAsked.2.2.1

end Handler

/-! ### One visit -/

theorem costByProjectDay_of_jobs {db db' : Database} (h : db'.jobs = db.jobs) :
    db'.costByProjectDay = db.costByProjectDay := by
  simp only [Database.costByProjectDay, h]

/-- Only what is kept from the peer may differ. -/
structure Circumstances.Alike (v v' : Circumstances) : Prop where
  moment : v'.moment = v.moment
  jobs : v'.db.jobs = v.db.jobs
  generatedAt : v'.generatedAt = v.generatedAt
  renderFault : v'.renderFault = v.renderFault

namespace CostHandler

/-- The request presents the password. -/
def Admits (c : CostHandler) (r : Request) : Prop :=
  ∃ secret, c.secret = some secret ∧
    basicAuthOk c.py (r.header c.py "Authorization") (some secret) = .ok true

/-- The secret is the same, or each is an ASCII one. -/
structure Alike (c c' : CostHandler) : Prop where
  py : c'.py = c.py
  secret : c'.secret = c.secret ∨
    ∃ s s', c.secret = some s ∧ c'.secret = some s' ∧ asciiText s = true ∧ asciiText s' = true

variable {c c' : CostHandler} {r : Request}

theorem guard_ne_of_not_admits (t : Moment) (h : ¬ c.Admits r) : (c.at t).guard r ≠ .ok none :=
  fun hPasses => h ((c.at t).guard_eq_ok_none_iff.mp hPasses)

theorem Alike.guard (hAlike : c.Alike c') (h : ¬ c.Admits r) (h' : ¬ c'.Admits r) (t : Moment) :
    (c'.at t).guard r = (c.at t).guard r := by
  have hHeader : r.header c'.py "Authorization" = r.header c.py "Authorization" := by rw [hAlike.py]
  simp only [Handler.guard, CostHandler.at, hHeader]
  rcases hAlike.secret with hSame | ⟨s, s', hS, hS', hAscii, hAscii'⟩
  · rw [hSame, hAlike.py]
  · have hVerdict : basicAuthOk c'.py (r.header c.py "Authorization") (some s') =
        basicAuthOk c.py (r.header c.py "Authorization") (some s) := by
      rw [hAlike.py]
      refine (basicAuthOk_same hAscii hAscii' c.py (fun hOk => h ⟨s, hS, hOk⟩) fun hOk => h' ⟨s', hS', ?_⟩).symm
      rw [hHeader, hAlike.py]
      exact hOk
    simp only [hS, hS', hVerdict]

/-- What the handler says, what it read of the body, and whether it hangs up. -/
theorem Alike.exchange (hAlike : c.Alike c') (t : Moment) (db db' : Database) (start : List Byte)
    (head : Http.Head) (rest : List Byte) (h : ¬ c.Admits ⟨head.method, head.path, head.headers, rest⟩)
    (h' : ¬ c'.Admits ⟨head.method, head.path, head.headers, rest⟩) :
    c'.exchange t db' start head rest = c.exchange t db start head rest := by
  have hPy : (c'.at t).py = (c.at t).py := hAlike.py
  have hGuard := hAlike.guard h h' t
  have hOut := guard_ne_of_not_admits t h
  obtain ⟨hReply, _⟩ := Handler.handle_of_guard hPy hGuard hOut db db'
  have hRead := Handler.bodyRead_of_guard hOut
  have hRead' := Handler.bodyRead_of_guard (hGuard.symm ▸ hOut)
  simp only [CostHandler.exchange, hReply, hRead, hRead']

theorem bodyOf_same {storePath : Text} {v v' : Circumstances} (hv : v.Alike v') {after after' : Database}
    (hJobs : after'.jobs = after.jobs) {path : Text} {reply : Response}
    (hPage : ∀ status notice, reply = .page status notice → pagePaths.contains path = true) :
    bodyOf storePath v' after' path reply = bodyOf storePath v after path reply := by
  cases reply with
  | page status notice =>
    simp only [bodyOf, hPage status notice rfl, if_true, renderPage, costByProjectDay_of_jobs hJobs,
      hv.generatedAt]
  | error status explain => rfl
  | challenge realm => rfl

theorem jobs_of_handled {db after : Database} (hAfter : after = db ∨ after = db.connected) :
    after.jobs = db.jobs := by
  rcases hAfter with rfl | rfl
  · rfl
  · rfl

theorem Alike.render (hAlike : c.Alike c') {storePath : Text} {v v' : Circumstances} (hv : v.Alike v')
    (h : ¬ c.Admits r) (h' : ¬ c'.Admits r) : c'.render storePath v' r = c.render storePath v r := by
  have hPy : (c'.at v.moment).py = (c.at v.moment).py := hAlike.py
  have hGuard := hAlike.guard h h' v.moment
  obtain ⟨hReply, hAfter, hPage⟩ :=
    Handler.handle_of_guard hPy hGuard (guard_ne_of_not_admits v.moment h) v.db v'.db
  obtain ⟨_, hAfter', _⟩ :=
    Handler.handle_of_guard rfl rfl (guard_ne_of_not_admits v.moment h') v'.db v'.db
  have hJobs := (jobs_of_handled hAfter').trans (hv.jobs.trans (jobs_of_handled hAfter).symm)
  unfold CostHandler.render
  rw [hv.moment]
  rcases hOut : (c.at v.moment).handle v.db r with ⟨answer, after⟩
  rcases hOut' : (c'.at v.moment).handle v'.db r with ⟨answer', after'⟩
  rw [hOut, hOut'] at hReply
  rw [hOut] at hPage hJobs
  rw [hOut'] at hJobs
  obtain rfl : answer' = answer := hReply
  cases answer' with
  | error e => rfl
  | ok reply => exact bodyOf_same hv hJobs fun status notice hSame => hPage status notice (hSame ▸ rfl)

theorem Alike.visit (hAlike : c.Alike c') {storePath : Text} {v v' : Circumstances} (hv : v.Alike v')
    {start : List Byte} (hOut : ∀ shown left, c.visit storePath v start = some (shown, left) →
      ¬ c.Admits shown.exchange.request ∧ ¬ c'.Admits shown.exchange.request) :
    c.visit storePath v start = c'.visit storePath v' start := by
  unfold CostHandler.visit at hOut ⊢
  rw [hAlike.py]
  cases hParsed : Http.parseRequest c.py start with
  | refused message => rfl
  | ended => rfl
  | request head rest =>
    simp only [hParsed] at hOut ⊢
    have hBoth : ¬ c.Admits ⟨head.method, head.path, head.headers, rest⟩ ∧
        ¬ c'.Admits ⟨head.method, head.path, head.headers, rest⟩ := hOut _ _ rfl
    obtain ⟨h, h'⟩ := hBoth
    have hRender := @Alike.render _ _ _ hAlike storePath _ _ hv h h'
    have hMoment : c'.momentOf storePath v' ⟨head.method, head.path, head.headers, rest⟩ =
        c.momentOf storePath v ⟨head.method, head.path, head.headers, rest⟩ := by
      unfold CostHandler.momentOf
      rw [hRender, hv.moment, hv.renderFault]
    rw [hMoment, hAlike.exchange _ v.db v'.db start head rest h h', hRender]

end CostHandler

/-- A peer that never presents the password is shown the same, byte for byte of what it sent,
whatever the policies and the worker's figures in the store are, whoever changes them
between its requests, and whatever ASCII secret it has failed to present; and no request of
it changes a row. -/
theorem outsider_learns_nothing {c c' : CostHandler} (hAlike : c.Alike c') (storePath : Text)
    {circumstances circumstances' : List Circumstances}
    (hCircumstances : List.Forall₂ Circumstances.Alike circumstances circumstances') (sent : List Byte)
    (hOutside : ∀ shown ∈ c.shows storePath circumstances sent,
      ¬ c.Admits shown.exchange.request ∧ ¬ c'.Admits shown.exchange.request) :
    c'.shows storePath circumstances' sent = c.shows storePath circumstances sent ∧
      ∀ shown ∈ c.shows storePath circumstances sent, ∀ (t : Moment) (db : Database),
        ((c.at t).handle db shown.exchange.request).2.jobs = db.jobs ∧
        ((c.at t).handle db shown.exchange.request).2.modelPolicy = db.modelPolicy ∧
        ((c.at t).handle db shown.exchange.request).2.policyRows = db.policyRows := by
  have hVisit : ∀ (v v' : Circumstances) s, v.Alike v' →
      (∀ shown left, c.visit storePath v s = some (shown, left) →
        ¬ c.Admits shown.exchange.request ∧ ¬ c'.Admits shown.exchange.request) →
      c.visit storePath v s = c'.visit storePath v' s := fun _ _ _ hv hWithin => hAlike.visit hv hWithin
  constructor
  · exact (watch_congr hVisit hCircumstances hOutside).symm
  · intro shown hShown t db
    rcases (c.at t).handle_gated db shown.exchange.request with
      ⟨project, kind, model, hAdmitted, _⟩ | ⟨_, hSame | hSame⟩
    · exact absurd hAdmitted.authorized (hOutside shown hShown).1
    · rw [hSame]
      exact ⟨rfl, rfl, rfl⟩
    · rw [hSame]
      exact ⟨rfl, rfl, Handler.connected_policyRows db⟩

/-- The ledger, and then a form with a password that is not the secret. -/
def strangerBytes : List Byte :=
  Http.toLatin1 (txt "GET / HTTP/1.1" ++ Http.crlf ++ Http.crlf ++ txt "POST /policy HTTP/1.1" ++ Http.crlf ++
    txt "Authorization: Basic OnE=" ++ Http.crlf ++ Http.crlf)

def calmCircumstances (db : Database) : Circumstances :=
  ⟨⟨.startOf newYear2026, none, none⟩, db, .startOf newYear2026,
    ⟨.valueError, txt "decimal"⟩⟩

def setPolicy : Database :=
  (Database.empty.perform (setModelPolicy (txt "demo") (txt "chat") (txt "gpt-5") (.startOf newYear2026))).2

theorem outsider_learns_nothing_stranger :
    let shows (secret : String) (db : Database) :=
      (CostHandler.mk .ascii (some (txt secret))).shows (txt "bus.db")
        (List.replicate 3 (calmCircumstances db)) strangerBytes
    shows "s" setPolicy = shows "t" .empty ∧ (shows "t" .empty).length = 2 := by
  intro shows
  have hVerdicts : ∀ secret ∈ ["s", "t"], (shows "t" .empty).all (fun shown =>
      decide ((basicAuthOk .ascii (shown.exchange.request.header .ascii "Authorization")
        (some (txt secret))).toOption = some false)) = true := by
    decide +kernel
  have hOutside : ∀ secret ∈ ["s", "t"], ∀ shown ∈ shows "t" .empty,
      ¬ (CostHandler.mk .ascii (some (txt secret))).Admits shown.exchange.request := by
    rintro secret hSecret shown hShown ⟨password, hPassword, hAdmitted⟩
    cases hPassword
    have hVerdict := of_decide_eq_true (List.all_eq_true.mp (hVerdicts secret hSecret) shown hShown)
    rw [hAdmitted] at hVerdict
    cases hVerdict
  have hAlike : CostHandler.Alike ⟨.ascii, some (txt "t")⟩ ⟨.ascii, some (txt "s")⟩ :=
    ⟨rfl, .inr ⟨_, _, rfl, rfl, by decide, by decide⟩⟩
  have hSame : (calmCircumstances .empty).Alike (calmCircumstances setPolicy) := ⟨rfl, rfl, rfl, rfl⟩
  have hCircumstances : List.Forall₂ Circumstances.Alike
      (List.replicate 3 (calmCircumstances .empty)) (List.replicate 3 (calmCircumstances setPolicy)) :=
    .cons hSame (.cons hSame (.cons hSame .nil))
  refine ⟨?_, by decide +kernel⟩
  exact (outsider_learns_nothing hAlike (txt "bus.db") hCircumstances strangerBytes fun shown hShown =>
    ⟨hOutside "t" (by simp) shown hShown, hOutside "s" (by simp) shown hShown⟩).1

end LlmBus
