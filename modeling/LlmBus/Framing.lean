import LlmBus.Foundation.Http
import LlmBus.Server
import Mathlib.Data.List.Infix

/-! # One connection of the policy page

The handler speaks HTTP/1.1, so a connection outlives a request and the next one is read
from the first byte that the last one left. A request is settled when its answer has
closed the connection or its body has been read.
-/

namespace LlmBus

open Foundation

/-- What differs from one request to the next: the clock, and the exceptions that come up
in the store's write and while a reply is made and sent. -/
structure Moment where
  now : DateTime
  storeFault : Option PyError
  replyFault : Option PyError

/-- `_CostHandler` -/
structure CostHandler where
  py : Interpreter
  secret : Option Text

def CostHandler.at (c : CostHandler) (t : Moment) : Handler :=
  ⟨c.py, c.secret, t.now, t.storeFault⟩

namespace Handler

variable (h : Handler)

/-- How much of the body `do_POST` takes off the connection. -/
def bodyRead (r : Request) : Nat :=
  if r.method = txt "POST" ∧ r.path = policyPath ∧ h.guard r = .ok none ∧
      originAllowed (r.header h.py "Origin") (r.header h.py "Host") = true then
    match h.parseContentLength (r.header h.py "Content-Length") with
    | .ok length => if maxFormBytes < length then 0 else length
    | .error _ => 0
  else 0

end Handler

/-- An exception ends the thread of the connection, `send_error` announces and makes its
end, and `send_response` by itself does neither. -/
def closes : Except PyError Response → Bool
  | .error _ => true
  | .ok (.error _ _) => true
  | .ok (.page _ _) => false
  | .ok (.challenge _) => false

/-- One request and its answer, with the bytes unread before it and after it. -/
structure Exchange where
  start : List Byte
  request : Request
  reply : Except PyError Response
  left : List Byte
  closed : Bool

namespace Exchange

variable (py : Interpreter) (e : Exchange)

def declared : Nat :=
  Http.declaredLength (e.request.header py "Content-Length")

def dispatched : Text × Text × List Byte :=
  (e.request.method, e.request.path, e.request.stream.take (e.declared py))

def Settled : Prop :=
  e.closed = true ∨ e.left = e.request.stream.drop (e.declared py)

end Exchange

namespace CostHandler

variable (c : CostHandler)

def exchange (t : Moment) (db : Database) (start : List Byte) (head : Http.Head)
    (rest : List Byte) : Exchange :=
  let request : Request := ⟨head.method, head.path, head.headers, rest⟩
  let reply :=
    match t.replyFault with
    | some e => .error e
    | none => ((c.at t).handle db request).1
  { start
    request
    reply
    left := rest.drop ((c.at t).bodyRead request)
    closed := head.closeConnection || closes reply }

/-- `BaseHTTPRequestHandler.handle`: requests are taken off the connection until one of
them closes it. -/
def serve : List Moment → Database → List Byte → List Exchange
  | [], _, _ => []
  | t :: turns, db, start =>
    match Http.parseRequest c.py start with
    | .request head rest =>
      let e := c.exchange t db start head rest
      e :: if e.closed then [] else serve turns ((c.at t).handle db e.request).2 e.left
    | .refused _ => []
    | .ended => []

end CostHandler

/-! ### What is sent -/

structure SentRequest (py : Interpreter) extends Http.RequestHead where
  body : List Byte
  declares : Http.Declares (Http.get py toRequestHead.headers (txt "Content-Length")) body.length

namespace SentRequest

variable {py : Interpreter}

def asked (s : SentRequest py) : Text × Text × List Byte :=
  (s.method, Http.singleSlash s.target, s.body)

/-- The request as the handler sees it, with nothing sent after it. -/
def request (s : SentRequest py) : Request :=
  ⟨s.method, Http.singleSlash s.target, s.headers, s.body⟩

def wire (sent : List (SentRequest py)) : List Byte :=
  sent.flatMap fun s => s.bytes ++ s.body

end SentRequest

/-- Every byte of a body stays a byte of that body: what is dispatched is what was sent, in
order and from the first on, each request settled and each read where one was sent. -/
structure Framed {py : Interpreter} (exchanges : List Exchange) (sent : List (SentRequest py)) :
    Prop where
  dispatched : exchanges.map (·.dispatched py) <+: sent.map SentRequest.asked
  settled : ∀ e ∈ exchanges, e.Settled py
  starts : exchanges.map (·.start) <+: sent.tails.map SentRequest.wire

/-! ### When a connection stays open -/

namespace Handler

variable (h : Handler)

/-- A page or the demand for a password goes out, and nobody looks at the body. -/
def LeavesBody (r : Request) : Prop :=
  (r.method = txt "GET" ∧ pagePaths.contains r.path = true) ∨
    (r.method = txt "GET" ∧ r.path = policyPath ∧ ∃ secret allowed, h.secret = some secret ∧
      basicAuthOk h.py (r.header h.py "Authorization") (some secret) = .ok allowed) ∨
    (r.method = txt "POST" ∧ r.path = policyPath ∧ ∃ secret, h.secret = some secret ∧
      basicAuthOk h.py (r.header h.py "Authorization") (some secret) = .ok false)

/-- The form is refused, or the store takes what it says. -/
def FormAnswered (body : List Byte) : Prop :=
  (∃ e, h.parsePolicyForm (Utf8.decodeReplace body) = .error e) ∨
    ∃ project kind model,
      h.parsePolicyForm (Utf8.decodeReplace body) = .ok (project, kind, model) ∧
        h.storeFault = none ∧ surrogateFree project = true ∧ surrogateFree kind = true ∧
        surrogateFree model = true

def StaysOpen (r : Request) : Prop :=
  h.LeavesBody r ∨ ∃ length, h.ReadsForm r length ∧ length ≤ r.stream.length ∧
    h.FormAnswered (r.stream.take length)

theorem writePolicy_eq_ok_iff {db : Database} {project kind model : Text} :
    (h.writePolicy db project kind model).1 = .ok () ↔
      h.storeFault = none ∧ surrogateFree project = true ∧ surrogateFree kind = true ∧
        surrogateFree model = true := by
  unfold writePolicy
  cases h.storeFault with
  | some e => simp
  | none =>
    simp only [true_and, Database.perform, setModelPolicy]
    rw [Transaction.atomically_single rfl]
    simp only [storeDialect, Statement.apply]
    have hOk : (∃ out, upsertModelPolicy ⟨project, kind, model, h.now⟩ db.connected = .ok out) ↔
        surrogateFree project = true ∧ surrogateFree kind = true ∧ surrogateFree model = true := by
      simp only [upsertModelPolicy, bind_eq_ok_iff, bindText_eq_ok_iff]
      constructor
      · rintro ⟨_, _, hProject, _, hKind, _, hModel, _⟩
        exact ⟨hProject, hKind, hModel⟩
      · rintro ⟨hProject, hKind, hModel⟩
        exact ⟨_, (), hProject, (), hKind, (), hModel, rfl⟩
    rw [← hOk]
    cases upsertModelPolicy ⟨project, kind, model, h.now⟩ db.connected with
    | error e => simp
    | ok out => simp

theorem closes_submitForm {db : Database} {body : List Byte} :
    closes (h.submitForm db body).1 = false ↔ h.FormAnswered body := by
  unfold submitForm FormAnswered
  cases hForm : h.parsePolicyForm (Utf8.decodeReplace body) with
  | error e => exact iff_of_true rfl (.inl ⟨e, rfl⟩)
  | ok form =>
    obtain ⟨project, kind, model⟩ := form
    have hWrite := @writePolicy_eq_ok_iff h db project kind model
    simp only
    rcases hDone : h.writePolicy db project kind model with ⟨outcome, db'⟩
    rw [hDone] at hWrite
    cases outcome with
    | error e =>
      apply iff_of_false (by simp [closes])
      rintro (⟨e, hError⟩ | ⟨p, k, m, hOk, hTaken⟩)
      · cases hError
      · cases hOk
        cases hWrite.mpr hTaken
    | ok u => exact iff_of_true rfl (.inr ⟨project, kind, model, rfl, hWrite.mp rfl⟩)

theorem bodyRead_of_readsForm {r : Request} {length : Nat} (hReads : h.ReadsForm r length) :
    h.bodyRead r = length := by
  rw [bodyRead, if_pos ⟨hReads.method, hReads.path, h.guard_eq_ok_none_iff.mpr hReads.authorized,
    hReads.origin⟩, hReads.declared]
  exact if_neg (Nat.not_lt.mpr hReads.small)

theorem bodyRead_eq_zero {r : Request} (hNot : ∀ length, ¬ h.ReadsForm r length) :
    h.bodyRead r = 0 := by
  unfold bodyRead
  split
  · rename_i hAsked
    obtain ⟨hPost, hPath, hGuard, hOrigin⟩ := hAsked
    cases hLength : h.parseContentLength (r.header h.py "Content-Length") with
    | error e => rfl
    | ok length =>
      by_cases hLarge : maxFormBytes < length
      · exact if_pos hLarge
      · exact absurd ⟨hPost, hPath, h.guard_eq_ok_none_iff.mp hGuard, hOrigin, hLength,
          Nat.not_lt.mp hLarge⟩ (hNot length)
  · rfl

theorem leavesBody_post_iff {r : Request} (hPost : r.method = txt "POST") :
    h.LeavesBody r ↔ h.Denied r := by
  have hGet : r.method ≠ txt "GET" := by
    rw [hPost]
    decide
  constructor
  · rintro (⟨hMethod, -⟩ | ⟨hMethod, -⟩ | ⟨-, hDenied⟩)
    · exact absurd hMethod hGet
    · exact absurd hMethod hGet
    · exact hDenied
  · exact fun hDenied => .inr (.inr ⟨hPost, hDenied⟩)

theorem TurnsAway.closes_iff {r : Request} {reply : Except PyError Response}
    (hAway : h.TurnsAway r reply) : closes reply = false ↔ h.Denied r := by
  cases hAway with
  | raises e hNot => exact iff_of_false (by simp [closes]) hNot
  | refuses code message hNot => exact iff_of_false (by simp [closes]) hNot
  | challenges hDenied => exact iff_of_true rfl hDenied

theorem ReadsForm.length_unique {r : Request} {length length' : Nat}
    (hReads : h.ReadsForm r length) (hReads' : h.ReadsForm r length') : length = length' := by
  have hDeclared := hReads.declared
  rw [hReads'.declared] at hDeclared
  exact (Except.ok.inj hDeclared).symm

theorem not_readsForm_of_leavesBody {r : Request} (hLeaves : h.LeavesBody r) (length : Nat) :
    ¬ h.ReadsForm r length := by
  intro hReads
  obtain ⟨secret, hSecret, hAllowed⟩ := hReads.authorized
  rcases hLeaves with ⟨hGet, -⟩ | ⟨hGet, -⟩ | ⟨-, -, secret', hSecret', hDenied⟩
  · exact absurd (hGet.symm.trans hReads.method) (by decide)
  · exact absurd (hGet.symm.trans hReads.method) (by decide)
  · rw [hSecret'] at hSecret
    cases hSecret
    rw [hDenied] at hAllowed
    cases hAllowed

theorem closes_doPost {db : Database} {r : Request} (hPost : r.method = txt "POST") :
    closes (h.doPost db r).1 = false ↔ h.StaysOpen r := by
  rcases h.doPost_cases db hPost with ⟨length, hReads, hSame⟩ | ⟨hNot, reply, hSame, hAway⟩
  · have hOnly : h.StaysOpen r ↔
        length ≤ r.stream.length ∧ h.FormAnswered (r.stream.take length) := by
      constructor
      · rintro (hLeaves | ⟨length', hReads', hOpen⟩)
        · exact absurd hReads (h.not_readsForm_of_leavesBody hLeaves length)
        · rwa [hReads.length_unique h hReads']
      · exact fun hOpen => .inr ⟨length, hReads, hOpen⟩
    rw [hOnly, show h.doPost db r = _ from hSame r.stream, List.length_take]
    by_cases hFull : length ≤ r.stream.length
    · rw [if_neg (by omega), h.closes_submitForm]
      exact (and_iff_right hFull).symm
    · rw [if_pos (by omega)]
      exact iff_of_false (by simp [closes]) fun hOpen => hFull hOpen.1
  · rw [show h.doPost db r = _ from hSame r.stream, hAway.closes_iff, ← h.leavesBody_post_iff hPost]
    constructor
    · exact .inl
    · rintro (hLeaves | ⟨length, hReads, -⟩)
      · exact hLeaves
      · exact absurd hReads (hNot length)

theorem staysOpen_get_iff {r : Request} (hGet : r.method = txt "GET") :
    h.StaysOpen r ↔ pagePaths.contains r.path = true ∨ (r.path = policyPath ∧
      ∃ secret allowed, h.secret = some secret ∧
        basicAuthOk h.py (r.header h.py "Authorization") (some secret) = .ok allowed) := by
  have hNotPost : r.method ≠ txt "POST" := by
    rw [hGet]
    decide
  constructor
  · rintro ((⟨-, hPage⟩ | ⟨-, hPolicy⟩ | ⟨hPost, -⟩) | ⟨length, hReads, -⟩)
    · exact .inl hPage
    · exact .inr hPolicy
    · exact absurd hPost hNotPost
    · exact absurd hReads.method hNotPost
  · rintro (hPage | hPolicy)
    · exact .inl (.inl ⟨hGet, hPage⟩)
    · exact .inl (.inr (.inl ⟨hGet, hPolicy⟩))

theorem closes_doGet {db : Database} {r : Request} (hGet : r.method = txt "GET") :
    closes (h.doGet db r).1 = false ↔ h.StaysOpen r := by
  rw [h.staysOpen_get_iff hGet]
  unfold doGet
  split
  · rename_i hPage
    exact iff_of_true rfl (.inl hPage)
  rename_i hPage
  rw [or_iff_right hPage]
  split
  · rename_i hPath
    rw [and_iff_right hPath, guard]
    cases h.secret with
    | none => simp [closes]
    | some secret =>
      cases hAuth : basicAuthOk h.py (r.header h.py "Authorization") (some secret) with
      | error e => simp [hAuth, closes]
      | ok allowed =>
        refine iff_of_true ?_ ⟨secret, allowed, rfl, hAuth⟩
        cases allowed with
        | false => simp only [hAuth, closes]
        | true => simp only [hAuth, closes]
  · rename_i hPath
    exact iff_of_false (by simp [closes]) fun hShown => hPath hShown.1

theorem closes_handle {db : Database} {r : Request} :
    closes (h.handle db r).1 = false ↔ h.StaysOpen r := by
  unfold handle
  split
  · rename_i hGet
    exact h.closes_doGet hGet
  split
  · rename_i hPost
    exact h.closes_doPost hPost
  · rename_i hGet hPost
    apply iff_of_false (by simp [closes])
    rintro ((⟨hMethod, -⟩ | ⟨hMethod, -⟩ | ⟨hMethod, -⟩) | ⟨length, hReads, -⟩)
    · exact hGet hMethod
    · exact hGet hMethod
    · exact hPost hMethod
    · exact hPost hReads.method

end Handler

/-! ### The exact condition -/

namespace SentRequest

variable {py : Interpreter} (s : SentRequest py)

theorem declaredLength_eq :
    Http.declaredLength (Http.get py s.headers (txt "Content-Length")) = s.body.length :=
  Http.declaredLength_of_declares s.declares

theorem wire_cons (sent : List (SentRequest py)) :
    wire (s :: sent) = s.bytes ++ (s.body ++ wire sent) := by
  rw [wire, List.flatMap_cons, List.append_assoc]
  rfl

/-- The length the endpoint reads in the head is that of the body. -/
theorem length_of_parseContentLength {h : Handler} {length : Nat}
    (hLength : h.parseContentLength (Http.get py s.headers (txt "Content-Length")) = .ok length) :
    length = s.body.length := by
  have hDeclares := s.declares
  cases hField : Http.get py s.headers (txt "Content-Length") with
  | none =>
    rw [hField] at hLength hDeclares
    cases hLength
    exact hDeclares.symm
  | some raw =>
    rw [hField] at hLength hDeclares
    simp only [Handler.parseContentLength] at hLength
    split at hLength
    · cases hLength
    · rename_i hParse
      cases hLength
      exact Int.ofNat.inj (Http.parseInt_of_declares h.py hDeclares hParse)
    · cases hLength

end SentRequest

namespace CostHandler

variable (c : CostHandler)

/-- The server answers the request and leaves the connection open. -/
structure StaysOpen (t : Moment) (s : SentRequest c.py) : Prop where
  fits : s.Fits
  keepsAlive : Http.closeConnection c.py (1, 1) s.headers = false
  replied : t.replyFault = none
  answered : (c.at t).StaysOpen s.request

/-- No request that comes to be answered over a connection that stays open has a body that
its answer does not look at. -/
def BodiesTaken : List Moment → List (SentRequest c.py) → Prop
  | t :: turns, s :: sent =>
    c.StaysOpen t s → ((c.at t).LeavesBody s.request → s.body = []) ∧ BodiesTaken turns sent
  | _, _ => True

/-- The exchange a sent request leads to, whatever is sent after it. -/
def exchanged (t : Moment) (db : Database) (s : SentRequest c.py) (rest : List Byte) : Exchange :=
  c.exchange t db (s.bytes ++ (s.body ++ rest)) (s.read c.py) (s.body ++ rest)

variable {c} {t : Moment} {db : Database} {s : SentRequest c.py}

theorem serve_wire (hFits : s.Fits) (turns : List Moment) (sent : List (SentRequest c.py)) :
    ∃ db', c.serve (t :: turns) db (SentRequest.wire (s :: sent)) =
      c.exchanged t db s (SentRequest.wire sent) ::
        if (c.exchanged t db s (SentRequest.wire sent)).closed then []
        else c.serve turns db' (c.exchanged t db s (SentRequest.wire sent)).left := by
  refine ⟨((c.at t).handle db (c.exchanged t db s (SentRequest.wire sent)).request).2, ?_⟩
  rw [SentRequest.wire_cons, serve, s.parseRequest_bytes c.py hFits]
  rfl

theorem serve_wire_of_not_fits (hFits : ¬ s.Fits) (turns : List Moment)
    (sent : List (SentRequest c.py)) : c.serve (t :: turns) db (SentRequest.wire (s :: sent)) = [] := by
  obtain ⟨status, hRefused⟩ := s.parseRequest_bytes_of_not_fits c.py hFits (s.body ++ SentRequest.wire sent)
  rw [SentRequest.wire_cons, serve, hRefused]

theorem exchanged_dispatched (rest : List Byte) :
    (c.exchanged t db s rest).dispatched c.py = s.asked := by
  have hDeclared : (c.exchanged t db s rest).declared c.py = s.body.length := s.declaredLength_eq
  rw [Exchange.dispatched, hDeclared]
  exact congrArg (fun body => (s.method, Http.singleSlash s.target, body)) List.take_left

theorem settled_exchanged_iff (rest : List Byte) :
    (c.exchanged t db s rest).Settled c.py ↔
      (c.exchanged t db s rest).closed = true ∨ (c.exchanged t db s rest).left = rest := by
  have hDeclared : (c.exchanged t db s rest).declared c.py = s.body.length := s.declaredLength_eq
  have hDrop : (c.exchanged t db s rest).request.stream.drop s.body.length = rest := List.drop_left
  rw [Exchange.Settled, hDeclared, hDrop]

theorem readsForm_length {length : Nat} (hReads : (c.at t).ReadsForm s.request length) :
    length = s.body.length :=
  s.length_of_parseContentLength hReads.declared

theorem answered_iff (rest : List Byte) :
    (c.at t).StaysOpen { s.request with stream := s.body ++ rest } ↔
      (c.at t).StaysOpen s.request := by
  have hForm : ∀ length, (c.at t).ReadsForm s.request length →
      (length ≤ (s.body ++ rest).length ∧ (c.at t).FormAnswered ((s.body ++ rest).take length) ↔
        length ≤ s.body.length ∧ (c.at t).FormAnswered (s.body.take length)) := by
    intro length hReads
    rw [readsForm_length hReads, List.take_left, List.take_length]
    exact and_congr_left fun _ => iff_of_true (by simp) le_rfl
  have hSame : ∀ length, (c.at t).ReadsForm { s.request with stream := s.body ++ rest } length ↔
      (c.at t).ReadsForm s.request length :=
    fun length => ⟨fun h => ⟨h.1, h.2, h.3, h.4, h.5, h.6⟩, fun h => ⟨h.1, h.2, h.3, h.4, h.5, h.6⟩⟩
  unfold Handler.StaysOpen
  refine or_congr Iff.rfl (exists_congr fun length => ?_)
  rw [hSame]
  exact and_congr_right (hForm length)

theorem exchanged_closed_iff (hFits : s.Fits) (rest : List Byte) :
    (c.exchanged t db s rest).closed = false ↔ c.StaysOpen t s := by
  have hReply := @Handler.closes_handle (c.at t) db { s.request with stream := s.body ++ rest }
  rw [answered_iff] at hReply
  have hClosed : (c.exchanged t db s rest).closed =
      (Http.closeConnection c.py (1, 1) s.headers || closes (c.exchanged t db s rest).reply) := rfl
  rw [hClosed, Bool.or_eq_false_iff]
  constructor
  · rintro ⟨hKeeps, hOpen⟩
    cases hFault : t.replyFault with
    | some e => simp [exchanged, exchange, hFault, closes] at hOpen
    | none =>
      simp only [exchanged, exchange, hFault] at hOpen
      exact ⟨hFits, hKeeps, hFault, hReply.mp hOpen⟩
  · intro hStays
    refine ⟨hStays.keepsAlive, ?_⟩
    simp only [exchanged, exchange, hStays.replied]
    exact hReply.mpr hStays.answered

/-- Where the connection stays open, the body has been read unless it was ignored. -/
theorem exchanged_left_iff (hStays : c.StaysOpen t s) (rest : List Byte) :
    (c.exchanged t db s rest).left = rest ↔
      ((c.at t).LeavesBody s.request → s.body = []) := by
  have hLeft : (c.exchanged t db s rest).left =
      (s.body ++ rest).drop ((c.at t).bodyRead s.request) := rfl
  rw [hLeft]
  rcases hStays.answered with hLeaves | ⟨length, hReads, -⟩
  · rw [(c.at t).bodyRead_eq_zero ((c.at t).not_readsForm_of_leavesBody hLeaves), List.drop_zero,
      List.append_left_eq_self]
    exact ⟨fun hEmpty _ => hEmpty, fun hTaken => hTaken hLeaves⟩
  · rw [(c.at t).bodyRead_of_readsForm hReads, readsForm_length hReads, List.drop_left]
    exact iff_of_true rfl fun hLeaves =>
      absurd hReads ((c.at t).not_readsForm_of_leavesBody hLeaves length)

end CostHandler

theorem framed_nil {py : Interpreter} (sent : List (SentRequest py)) : Framed [] sent :=
  ⟨List.nil_prefix, fun _ he => absurd he List.not_mem_nil, List.nil_prefix⟩

theorem framed_cons_iff {py : Interpreter} {e : Exchange} {exchanges : List Exchange} {s : SentRequest py}
    {sent : List (SentRequest py)} (hAsked : e.dispatched py = s.asked)
    (hStart : e.start = SentRequest.wire (s :: sent)) :
    Framed (e :: exchanges) (s :: sent) ↔ e.Settled py ∧ Framed exchanges sent := by
  constructor
  · rintro ⟨hDispatched, hSettled, hStarts⟩
    rw [List.map_cons, List.map_cons, List.cons_prefix_cons] at hDispatched
    rw [List.tails_cons, List.map_cons, List.map_cons, List.cons_prefix_cons] at hStarts
    exact ⟨hSettled e List.mem_cons_self, hDispatched.2,
      fun e' he' => hSettled e' (List.mem_cons_of_mem e he'), hStarts.2⟩
  · rintro ⟨hSettled, hRest⟩
    refine ⟨?_, ?_, ?_⟩
    · rw [List.map_cons, List.map_cons, List.cons_prefix_cons]
      exact ⟨hAsked, hRest.dispatched⟩
    · rw [List.forall_mem_cons]
      exact ⟨hSettled, hRest.settled⟩
    · rw [List.tails_cons, List.map_cons, List.map_cons, List.cons_prefix_cons]
      exact ⟨hStart, hRest.starts⟩

/-- The requests on a connection keep their frames exactly where every body is taken that
must be. -/
theorem serve_framed_iff (c : CostHandler) (turns : List Moment) (db : Database)
    (sent : List (SentRequest c.py)) :
    Framed (c.serve turns db (SentRequest.wire sent)) sent ↔ c.BodiesTaken turns sent := by
  induction turns generalizing db sent with
  | nil => exact iff_of_true (framed_nil sent) (by simp [CostHandler.BodiesTaken])
  | cons t turns ih =>
    cases sent with
    | nil => exact iff_of_true (framed_nil []) (by simp [CostHandler.BodiesTaken])
    | cons s sent =>
      rw [CostHandler.BodiesTaken]
      by_cases hFits : s.Fits
      swap
      · rw [CostHandler.serve_wire_of_not_fits hFits]
        exact iff_of_true (framed_nil _) fun hStays => absurd hStays.fits hFits
      obtain ⟨db', hServe⟩ := @CostHandler.serve_wire c t db s hFits turns sent
      have hStart : (c.exchanged t db s (SentRequest.wire sent)).start = SentRequest.wire (s :: sent) :=
        (SentRequest.wire_cons s sent).symm
      have hClosed := @CostHandler.exchanged_closed_iff c t db s hFits (SentRequest.wire sent)
      rw [hServe, framed_cons_iff (CostHandler.exchanged_dispatched _) hStart,
        CostHandler.settled_exchanged_iff]
      by_cases hStays : c.StaysOpen t s
      · have hOpen := hClosed.mpr hStays
        rw [hOpen, CostHandler.exchanged_left_iff hStays]
        simp only [Bool.false_eq_true, if_false, false_or, hStays, forall_const]
        apply and_congr_right
        intro hTaken
        rw [(CostHandler.exchanged_left_iff hStays _).mpr hTaken]
        exact ih db' sent
      · have hShut : (c.exchanged t db s (SentRequest.wire sent)).closed = true := by
          rw [← Bool.not_eq_false, hClosed]
          exact hStays
        rw [hShut, if_pos rfl]
        exact iff_of_true ⟨.inl rfl, framed_nil sent⟩ fun h => absurd h hStays

/-- A form sent without a password. Its bytes make up a request of their own. -/
def unauthorizedForm : SentRequest .ascii where
  method := txt "POST"
  target := txt "/policy"
  fields := [(txt "Content-Length", txt " 28")]
  method_ne_nil := by decide
  method_visible := List.all_eq_true.mp (by decide)
  target_ne_nil := by decide
  target_visible := List.all_eq_true.mp (by decide)
  name_ne_nil := List.forall_mem_singleton.mpr (by decide)
  name_chars := List.forall_mem_singleton.mpr (List.all_eq_true.mp (by decide))
  value_latin1 := List.forall_mem_singleton.mpr fun c hc =>
    of_decide_eq_true (List.all_eq_true.mp
      (by decide : (txt " 28").all (fun c => decide (c.val < 0x100)) = true) c hc)
  value_oneLine := List.forall_mem_singleton.mpr fun c hc =>
    of_decide_eq_true (List.all_eq_true.mp
      (by decide : (txt " 28").all (fun c => decide (Http.isLineEnd c = false)) = true) c hc)
  body := Http.toLatin1 (txt "GET /index.html HTTP/1.1\x0D\x0A\x0D\x0A")
  declares := ⟨txt "28", [], by decide +kernel, by decide, by decide, by decide, by decide +kernel⟩

theorem connection_loses_frame :
    let t : Moment := ⟨.startOf newYear2026, none, none⟩
    let served := (CostHandler.mk .ascii (some (txt "s"))).serve [t, t] .empty
      (SentRequest.wire [unauthorizedForm])
    served.map (·.dispatched .ascii) =
        [unauthorizedForm.asked, (txt "GET", txt "/index.html", [])] ∧
      ¬ Framed served [unauthorizedForm] := by
  intro t served
  have hDispatched : served.map (·.dispatched .ascii) =
      [unauthorizedForm.asked, (txt "GET", txt "/index.html", [])] := by decide +kernel
  refine ⟨hDispatched, fun hFramed => ?_⟩
  have hLength := hFramed.dispatched.length_le
  rw [hDispatched] at hLength
  exact absurd hLength (by decide)

end LlmBus
