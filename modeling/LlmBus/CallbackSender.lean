import LlmBus.Foundation.Sha256
import LlmBus.SdkRuns
import LlmBus.StoreText

/-! # The callback on the wire

What the worker posts for a result: the JSON of the result as bytes and, where a secret is
set, the keyed digest of those bytes. The deliveries are carried out over the HTTP client
that the sender posts through.
-/

namespace LlmBus

open Foundation Interaction JsonText Sha256

/-! ### The request -/

def textOrNull : Option Text → Value
  | none => .null
  | some s => .str s

/-- `usage.model_dump(by_alias=True)` -/
def Usage.dump (usage : Usage) : Entries :=
  [(txt "in", .int usage.inputTokens), (txt "out", .int usage.outputTokens),
    (txt "cost_usd", .float usage.costUsd)]

/-- `result.model_dump(by_alias=True)` -/
def Result.dump (result : Result) : Entries :=
  [(txt "job_id", .str result.jobId.text), (txt "status", .str result.status.status.text),
    (txt "completion", textOrNull result.completion), (txt "usage", .dict result.usage.dump),
    (txt "provider", textOrNull result.provider), (txt "error", textOrNull result.error),
    (txt "meta", .dict result.metadata)]

/-- `str.encode()` -/
def encodeText (s : Text) : Except PyError (List Byte) :=
  if surrogateFree s then .ok (Utf8.encode s)
  else .error ⟨.unicodeEncodeError, txt "surrogates not allowed"⟩

def callbackSignatureHeader : Text := txt "X-Llmbus-Signature-256"

def callbackSignature (secret : Text) (body : List Byte) : Except PyError Text := do
  let key ← encodeText secret
  pure (txt "sha256=" ++ hexBytes (keyedDigest key body))

abbrev Headers := List (Text × Text)

def callbackHeaders (secret : Option Text) (body : List Byte) : Except PyError Headers :=
  let headers := [(txt "Content-Type", txt "application/json")]
  match secret with
  | none => .ok headers
  | some secret => do
    let signature ← callbackSignature secret body
    pure (headers ++ [(callbackSignatureHeader, signature)])

/-- `response.status_code`, and what `raise_for_status` raises where it is no success. -/
structure HttpResponse where
  statusCode : Nat
  statusError : PyError

def HttpResponse.raiseForStatus (response : HttpResponse) : Except PyError Unit :=
  if 200 ≤ response.statusCode ∧ response.statusCode ≤ 299 then .ok () else .error response.statusError

inductive HttpOp (pyd : Pydantic) where
  | bus (op : BusOp pyd)
  /-- `http_client.post` -/
  | post (url : Text) (content : List Byte) (headers : Headers)

abbrev HttpOp.Reply {pyd : Pydantic} : HttpOp pyd → Type
  | .bus op => op.Reply
  | .post .. => Except PyError HttpResponse

abbrev httpInterface (pyd : Pydantic) : Interface where
  Op := HttpOp pyd
  Reply := HttpOp.Reply

/-- What is posted for a result, or what is raised on the way to it. -/
def callbackRequest (py : Interpreter) (secret : Option Text) (result : Result) :
    Except PyError (List Byte × Headers) := do
  let payload ← jsonDumps py result.dump
  let body ← encodeText payload
  let headers ← callbackHeaders secret body
  pure (body, headers)

variable {pyd : Pydantic}

/-- The `send` of `make_callback_sender`. -/
def sendCallback (py : Interpreter) (secret : Option Text) (url : Text) (result : Result) :
    Program (httpInterface pyd) Empty (Except PyError Unit) :=
  match callbackRequest py secret result with
  | .error e => .ret (.error e)
  | .ok request => .ask (.post url request.1 request.2)
      fun reply : Except PyError HttpResponse => .ret (reply.bind HttpResponse.raiseForStatus)

def overHttp (py : Interpreter) (secret : Option Text) :
    Interpretation (busInterface pyd) (httpInterface pyd)
  | .deliverCallback url result => sendCallback py secret url result
  | op => .ask (.bus op) .ret

/-! ### What a receiver makes of it -/

structure CallbackPost where
  url : Text
  body : List Byte
  headers : Headers

/-- The check a receiver makes with the shared secret. -/
def CallbackPost.Verifies (post : CallbackPost) (key body : List Byte) : Prop :=
  post.headers.lookup callbackSignatureHeader = some (txt "sha256=" ++ hexBytes (keyedDigest key body))

/-- The body is ASCII, and `json.loads` makes of it the dump of the result, but for pairs that
stand as their two halves. -/
def CallbackPost.Carries (py : Interpreter) (post : CallbackPost) (result : Result) : Prop :=
  ∃ text, asciiText text = true ∧ Utf8.decode post.body = some text ∧
    ∀ parseFloat, Value.FloatsReadEntries py.floatText parseFloat result.dump →
      jsonLoads parseFloat text = some (Value.dict result.dump).joined

/-- With a secret, the body verifies, and another one that does exhibits a collision of the
digest; without one nothing is signed. -/
def CallbackPost.Signed (post : CallbackPost) (secret : Option Text) : Prop :=
  match secret with
  | none => post.headers.lookup callbackSignatureHeader = none
  | some secret => ∃ key, encodeText secret = .ok key ∧ post.Verifies key post.body ∧
      ∀ body, post.Verifies key body → body = post.body ∨
        Collide (innerText key post.body) (innerText key body) ∨
          Collide (outerText key post.body) (outerText key body)

section Request

variable {py : Interpreter} {secret : Option Text} {result : Result} {body : List Byte} {headers : Headers}

theorem encodeText_eq_ok_iff {s : Text} {bytes : List Byte} :
    encodeText s = .ok bytes ↔ surrogateFree s = true ∧ Utf8.encode s = bytes := by
  unfold encodeText
  cases surrogateFree s <;> simp

theorem jsonDumps_eq_ok_iff {entries : Entries} {text : Text} :
    jsonDumps py entries = .ok text ↔ Value.dumpFailureEntries entries = none ∧
      dumps py.floatText (.obj (Value.datumEntries entries)) = text := by
  unfold jsonDumps
  cases Value.dumpFailureEntries entries <;> simp

theorem encodeText_jsonDumps {entries : Entries} {text : Text} (h : jsonDumps py entries = .ok text) :
    asciiText text = true ∧ encodeText text = .ok (Utf8.encode text) := by
  obtain ⟨_, rfl⟩ := jsonDumps_eq_ok_iff.mp h
  have hAscii := asciiText_dumps py.floatText_ascii (.obj (Value.datumEntries entries))
  exact ⟨hAscii, encodeText_eq_ok_iff.mpr ⟨surrogateFree_of_asciiText hAscii, rfl⟩⟩

theorem callbackHeaders_signed (h : callbackHeaders secret body = .ok headers) (url : Text) :
    (⟨url, body, headers⟩ : CallbackPost).Signed secret := by
  cases secret with
  | none =>
    cases h
    rfl
  | some secret =>
    obtain ⟨signature, hSignature, hHeaders⟩ := bind_eq_ok_iff.mp h
    obtain ⟨key, hKey, hText⟩ := bind_eq_ok_iff.mp hSignature
    cases hHeaders
    cases hText
    have hHeader : ∀ signature, ([(txt "Content-Type", txt "application/json"),
        (callbackSignatureHeader, signature)] : Headers).lookup callbackSignatureHeader =
          some signature := by
      intro signature
      rw [List.lookup_cons, show (callbackSignatureHeader == txt "Content-Type") = false by decide,
        List.lookup_cons, beq_self_eq_true]
    refine ⟨key, hKey, hHeader _, fun other hVerifies => ?_⟩
    have hSame := Option.some.inj ((hHeader _).symm.trans hVerifies)
    have hDigest := hexBytes_injective (List.append_cancel_left hSame)
    exact (eq_or_collide hDigest).imp_left Eq.symm

theorem callbackRequest_carries (h : callbackRequest py secret result = .ok (body, headers)) (url : Text) :
    (⟨url, body, headers⟩ : CallbackPost).Carries py result := by
  obtain ⟨text, hDumps, hRest⟩ := bind_eq_ok_iff.mp h
  obtain ⟨bytes, hEncode, hRest⟩ := bind_eq_ok_iff.mp hRest
  obtain ⟨headers', hHeaders, hPair⟩ := bind_eq_ok_iff.mp hRest
  cases hPair
  obtain ⟨hAscii, hOwn⟩ := encodeText_jsonDumps hDumps
  obtain rfl : Utf8.encode text = body := Except.ok.inj (hOwn.symm.trans hEncode)
  obtain ⟨hJson, rfl⟩ := jsonDumps_eq_ok_iff.mp hDumps
  refine ⟨_, hAscii, Utf8.decode_encode (surrogateFree_of_asciiText hAscii), fun parseFloat hFloats => ?_⟩
  exact jsonLoads_dumps hJson hFloats

theorem callbackRequest_signed (h : callbackRequest py secret result = .ok (body, headers)) (url : Text) :
    (⟨url, body, headers⟩ : CallbackPost).Signed secret := by
  obtain ⟨text, _, hRest⟩ := bind_eq_ok_iff.mp h
  obtain ⟨bytes, _, hLater⟩ := bind_eq_ok_iff.mp hRest
  obtain ⟨headers', hHeaders, hPair⟩ := bind_eq_ok_iff.mp hLater
  cases hPair
  exact callbackHeaders_signed hHeaders url

/-- The request can be built unless the metadata has no JSON or the secret no bytes. -/
theorem exists_callbackRequest_iff :
    (∃ request, callbackRequest py secret result = .ok request) ↔
      Value.dumpFailureEntries result.dump = none ∧
        ∀ s, secret = some s → surrogateFree s = true := by
  constructor
  · rintro ⟨request, h⟩
    obtain ⟨text, hDumps, hRest⟩ := bind_eq_ok_iff.mp h
    obtain ⟨bytes, _, hRest⟩ := bind_eq_ok_iff.mp hRest
    obtain ⟨headers, hHeaders, _⟩ := bind_eq_ok_iff.mp hRest
    refine ⟨(jsonDumps_eq_ok_iff.mp hDumps).1, ?_⟩
    rintro s rfl
    obtain ⟨_, hSignature, _⟩ := bind_eq_ok_iff.mp hHeaders
    obtain ⟨key, hKey, _⟩ := bind_eq_ok_iff.mp hSignature
    exact (encodeText_eq_ok_iff.mp hKey).1
  · rintro ⟨hJson, hSecret⟩
    have hDumps : jsonDumps py result.dump =
        .ok (dumps py.floatText (.obj (Value.datumEntries result.dump))) :=
      jsonDumps_eq_ok_iff.mpr ⟨hJson, rfl⟩
    obtain ⟨_, hEncode⟩ := encodeText_jsonDumps hDumps
    have hHeaders : ∃ headers, callbackHeaders secret (Utf8.encode
        (dumps py.floatText (.obj (Value.datumEntries result.dump)))) = .ok headers := by
      cases secret with
      | none => exact ⟨_, rfl⟩
      | some s =>
        have hKey := encodeText_eq_ok_iff.mpr ⟨hSecret s rfl, rfl⟩
        exact ⟨_, bind_eq_ok_iff.mpr ⟨_, bind_eq_ok_iff.mpr ⟨_, hKey, rfl⟩, rfl⟩⟩
    obtain ⟨headers, hHeaders⟩ := hHeaders
    exact ⟨_, bind_eq_ok_iff.mpr ⟨_, hDumps, bind_eq_ok_iff.mpr ⟨_, hEncode,
      bind_eq_ok_iff.mpr ⟨headers, hHeaders, rfl⟩⟩⟩⟩

end Request

/-! ### One delivery -/

abbrev HttpEvent (pyd : Pydantic) := Event (httpInterface pyd)

def postedOf : HttpEvent pyd → Option CallbackPost
  | ⟨.post url content headers, _⟩ => some ⟨url, content, headers⟩
  | ⟨.bus _, _⟩ => none

/-- What is posted in a run. -/
def posted (trace : List (HttpEvent pyd)) : List CallbackPost :=
  trace.filterMap postedOf

/-- The store's answer to the finalize was that this one has won. -/
def Won (trace : List (HttpEvent pyd)) (result : Result) : Prop :=
  ∃ completedAt, (⟨.bus (.finalize result completedAt), .ok true⟩ : HttpEvent pyd) ∈ trace

def isCallback : BusOp pyd → Bool
  | .deliverCallback .. => true
  | _ => false

section Delivery

variable {py : Interpreter} {power : Power} {deps : WorkerDeps} {job : Job} {secret : Option Text}
  {result : Result} {events : List (BusEvent pyd)} {trace : List (HttpEvent pyd)}
  {outcome : Except PyError Result}

def forwarded (event : BusEvent pyd) : HttpEvent pyd :=
  ⟨.bus event.op, event.reply⟩

theorem carriedOut_forwarded (hQuiet : ∀ event ∈ events, isCallback event.op = false)
    (h : CarriedOut (overHttp py secret) events trace) : trace = events.map forwarded := by
  induction h with
  | nil => rfl
  | @cons op reply part events trace hPart hRest ih =>
    obtain ⟨hOp, hLater⟩ := List.forall_mem_cons.mp hQuiet
    have hForward : overHttp py secret op = .ask (.bus op) .ret := by
      cases op with
      | deliverCallback url result => cases hOp
      | _ => rfl
    rw [hForward] at hPart
    obtain ⟨reply', rest, rfl, hRet⟩ := yields_ask_iff.mp hPart
    cases hRet
    rw [ih hLater]
    rfl

theorem posted_forwarded (events : List (BusEvent pyd)) : posted (events.map forwarded) = [] := by
  rw [posted, List.filterMap_map]
  exact List.filterMap_eq_nil_iff.mpr fun _ _ => rfl

theorem won_forwarded_iff : Won (events.map forwarded) result ↔
    ∃ completedAt, (⟨.finalize result completedAt, .ok true⟩ : BusEvent pyd) ∈ events := by
  refine exists_congr fun completedAt => ⟨fun hMem => ?_, fun hMem => ?_⟩
  · obtain ⟨⟨op, reply⟩, hEvent, hSame⟩ := List.mem_map.mp hMem
    cases hSame
    exact hEvent
  · exact List.mem_map_of_mem hMem

/-- The sender posts what it can build, once. -/
theorem posted_sendCallback {url : Text} {told : Except PyError Unit} {part : List (HttpEvent pyd)}
    (h : Yields (sendCallback py secret url result) part (.ok told)) :
    (posted part = ((callbackRequest py secret result).toOption.map fun request =>
      (⟨url, request.1, request.2⟩ : CallbackPost)).toList) ∧ ∀ won, ¬ Won part won := by
  unfold sendCallback at h
  cases hRequest : callbackRequest py secret result with
  | error e =>
    rw [hRequest] at h
    cases h
    exact ⟨rfl, fun won ⟨_, hMem⟩ => absurd hMem List.not_mem_nil⟩
  | ok request =>
    rw [hRequest] at h
    obtain ⟨reply, rest, rfl, hRet⟩ := yields_ask_iff.mp h
    cases hRet
    refine ⟨rfl, fun won ⟨_, hMem⟩ => ?_⟩
    cases List.mem_singleton.mp hMem

/-- The finalize of a delivery, as the store answers it. -/
def rowEvents (result : Result) (completedAt : DateTime) (reply : Except PyError Bool) :
    List (BusEvent pyd) :=
  [⟨.storeClock, completedAt⟩, ⟨.finalize result completedAt, reply⟩]

theorem rowEvents_quiet {completedAt : DateTime} {reply : Except PyError Bool} :
    ∀ event ∈ (rowEvents result completedAt reply : List (BusEvent pyd)), isCallback event.op = false := by
  intro event hMem
  cases List.mem_cons.mp hMem with
  | inl hClock =>
    rw [hClock]
    rfl
  | inr hLast =>
    rw [List.mem_singleton.mp hLast]
    rfl

theorem finalizeAndNotify_cases
    (h : Yields (finalizeAndNotify job result : Bus pyd Result) events outcome) :
    ∃ completedAt reply,
      (events = rowEvents result completedAt reply ∧
        (reply = .ok true → job.callbackUrl = none ∧ outcome = .ok result)) ∨
      ∃ url told, reply = .ok true ∧ job.callbackUrl = some url ∧ outcome = .ok result ∧
        events = rowEvents result completedAt reply ++ [⟨.deliverCallback url result, told⟩] := by
  rw [finalizeAndNotify_eq] at h
  obtain ⟨completedAt, later, rfl, hFinalize⟩ := yields_ask_iff.mp h
  obtain ⟨reply, last, rfl, hNotify⟩ := yields_ask_iff.mp hFinalize
  refine ⟨completedAt, reply, ?_⟩
  cases reply with
  | error e =>
    cases hNotify
    exact .inl ⟨rfl, fun hWon => by cases hWon⟩
  | ok finalized =>
    rw [Program.ofExcept_ok, Program.ret_bind] at hNotify
    cases finalized with
    | false =>
      cases hNotify
      exact .inl ⟨rfl, fun hWon => by cases hWon⟩
    | true =>
      cases hUrl : job.callbackUrl with
      | none =>
        rw [hUrl] at hNotify
        cases hNotify
        exact .inl ⟨rfl, fun _ => ⟨rfl, rfl⟩⟩
      | some url =>
        rw [hUrl] at hNotify
        obtain ⟨told, rest, rfl, hRet⟩ := yields_ask_iff.mp hNotify
        cases hRet
        exact .inr ⟨url, told, rfl, rfl, rfl, rfl⟩

/-- What a delivery that won has to post. -/
def owed (py : Interpreter) (secret : Option Text) (job : Job) (result : Result) : List CallbackPost :=
  (job.callbackUrl.bind fun url => (callbackRequest py secret result).toOption.map fun request =>
    (⟨url, request.1, request.2⟩ : CallbackPost)).toList

theorem owed_cases (py : Interpreter) (secret : Option Text) (job : Job) (result : Result) :
    owed py secret job result = [] ∨ ∃ url body headers, job.callbackUrl = some url ∧
      callbackRequest py secret result = .ok (body, headers) ∧
        owed py secret job result = [⟨url, body, headers⟩] := by
  unfold owed
  cases job.callbackUrl with
  | none => exact .inl rfl
  | some url =>
    cases callbackRequest py secret result with
    | error e => exact .inl rfl
    | ok request => exact .inr ⟨url, request.1, request.2, rfl, rfl, rfl⟩

theorem length_owed_iff {url : Text} (hUrl : job.callbackUrl = some url) :
    (owed py secret job result).length = 1 ↔
      ∃ request, callbackRequest py secret result = .ok request := by
  rw [owed, hUrl]
  cases callbackRequest py secret result with
  | error e => exact iff_of_false (fun h => by cases h) fun ⟨_, h⟩ => by cases h
  | ok request => exact iff_of_true rfl ⟨request, rfl⟩

theorem posted_append (first rest : List (HttpEvent pyd)) :
    posted (first ++ rest) = posted first ++ posted rest :=
  List.filterMap_append

theorem won_append_iff {first rest : List (HttpEvent pyd)} :
    Won (first ++ rest) result ↔ Won first result ∨ Won rest result := by
  simp only [Won, List.mem_append, exists_or]

theorem won_row_iff {completedAt : DateTime} {reply : Except PyError Bool} {won : Result} :
    Won ((rowEvents result completedAt reply : List (BusEvent pyd)).map forwarded) won ↔
      reply = .ok true ∧ won = result := by
  rw [won_forwarded_iff]
  constructor
  · rintro ⟨finishedAt, hMem⟩
    cases List.mem_cons.mp hMem with
    | inl hClock => cases hClock
    | inr hRow =>
      cases List.mem_singleton.mp hRow
      exact ⟨rfl, rfl⟩
  · rintro ⟨rfl, rfl⟩
    exact ⟨completedAt, List.mem_cons_of_mem _ List.mem_cons_self⟩

/-- The wins of a run, with the result of the run and what it posts. -/
theorem delivery_posted
    (h : Yields (handle (overHttp py secret) (processJob py power deps job)) trace outcome) :
    ((∀ won, ¬ Won trace won) ∧ posted trace = []) ∨
      ∃ result, (∀ won, Won trace won ↔ won = result) ∧ outcome = .ok result ∧
        posted trace = owed py secret job result := by
  obtain ⟨events, hYields, hCarried⟩ := (yields_handle_iff _).mp h
  have hQuiet : ∀ {op : BusOp pyd}, ProviderSide op → isCallback op = false := by
    intro op hOp
    cases op with
    | deliverCallback url result => exact hOp.elim
    | _ => rfl
  have hFirst : ∀ {first made before}, Yields (jobResult py power deps job : Bus pyd Result) first made →
      CarriedOut (overHttp py secret) first before →
        posted before = [] ∧ ∀ won, ¬ Won before won := by
    intro first made before hMade hBefore
    have hSide := ((every_jobResult py power deps job).event hMade).1
    rw [carriedOut_forwarded (fun event hMem => hQuiet (hSide event hMem)) hBefore]
    refine ⟨posted_forwarded first, fun won hWon => ?_⟩
    obtain ⟨completedAt, hMem⟩ := won_forwarded_iff.mp hWon
    exact hSide _ hMem
  obtain ⟨e, hFail, rfl⟩ | ⟨result, first, rest, hMade, hRest, rfl⟩ := yields_bind_iff.mp hYields
  · exact .inl ⟨(hFirst hFail hCarried).2, (hFirst hFail hCarried).1⟩
  obtain ⟨before, after, rfl, hBefore, hAfter⟩ := hCarried.of_append
  obtain ⟨hSilent, hNotYet⟩ := hFirst hMade hBefore
  simp only [won_append_iff, posted_append, hSilent, hNotYet, false_or, List.nil_append]
  obtain ⟨completedAt, reply, ⟨rfl, hWins⟩ | ⟨url, told, rfl, hUrl, hOutcome, rfl⟩⟩ :=
    finalizeAndNotify_cases hRest
  · rw [carriedOut_forwarded rowEvents_quiet hAfter, posted_forwarded]
    simp only [won_row_iff]
    by_cases hReply : reply = .ok true
    · obtain ⟨hNoUrl, hOutcome⟩ := hWins hReply
      refine .inr ⟨result, fun won => and_iff_right hReply, hOutcome, ?_⟩
      rw [owed, hNoUrl]
      rfl
    · exact .inl ⟨fun won hWon => hReply hWon.1, trivial⟩
  · obtain ⟨row, last, rfl, hForwarded, hLast⟩ := hAfter.of_append
    rw [carriedOut_forwarded rowEvents_quiet hForwarded]
    cases hLast with
    | cons hPart hNil =>
      cases hNil
      obtain ⟨hPosted, hNoWin⟩ := posted_sendCallback hPart
      refine .inr ⟨result, fun won => ?_, hOutcome, ?_⟩
      · rw [List.append_nil, won_append_iff, won_row_iff]
        simp only [hNoWin, or_false, true_and]
      · rw [List.append_nil, posted_append, posted_forwarded, hPosted, owed, hUrl]
        rfl

end Delivery

/-- A delivery posts to nobody unless it has won the finalize, and then at most once: the result of
that finalize, at the job's own address, read back by whoever receives it and signed over the bytes
that are posted. A post is missing only where the metadata has no JSON or the secret no bytes, and
what becomes of it changes nothing for the worker. -/
theorem callback_of_delivery {py : Interpreter} {power : Power} {deps : WorkerDeps} {job : Job}
    {secret : Option Text} {trace : List (HttpEvent pyd)} {outcome : Except PyError Result}
    (h : Yields (handle (overHttp py secret) (processJob py power deps job)) trace outcome) :
    (posted trace).length ≤ 1 ∧
      (∀ post ∈ posted trace, ∃ result, Won trace result ∧ job.callbackUrl = some post.url ∧
        post.Carries py result ∧ post.Signed secret) ∧
      ∀ result, Won trace result → outcome = .ok result ∧
        ∀ url, job.callbackUrl = some url →
          ((posted trace).length = 1 ↔ Value.dumpFailureEntries result.dump = none ∧
            ∀ s, secret = some s → surrogateFree s = true) := by
  obtain ⟨hNone, hSilent⟩ | ⟨result, hWon, hOutcome, hPosted⟩ := delivery_posted h
  · rw [hSilent]
    exact ⟨Nat.zero_le 1, fun post hMem => absurd hMem List.not_mem_nil,
      fun result hResult => absurd hResult (hNone result)⟩
  rw [hPosted]
  refine ⟨?_, fun post hMem => ?_, fun won hResult => ?_⟩
  · obtain hNone | ⟨url, body, headers, _, _, hOne⟩ := owed_cases py secret job result
    · rw [hNone]
      exact Nat.zero_le 1
    · rw [hOne]
      exact le_rfl
  · obtain hNone | ⟨url, body, headers, hUrl, hRequest, hOne⟩ := owed_cases py secret job result
    · rw [hNone] at hMem
      exact absurd hMem List.not_mem_nil
    · rw [hOne] at hMem
      obtain rfl := List.mem_singleton.mp hMem
      exact ⟨result, (hWon result).mpr rfl, hUrl, callbackRequest_carries hRequest url,
        callbackRequest_signed hRequest url⟩
  · obtain rfl := (hWon won).mp hResult
    exact ⟨hOutcome, fun url hUrl => (length_owed_iff hUrl).trans exists_callbackRequest_iff⟩

/-- A job that was put on the topic without a model, and wants to hear of it. -/
def unmodelledJob : Job :=
  { plainJob with model := none, callbackUrl := some (txt "http://127.0.0.1/done") }

theorem callback_of_delivery_unmodelled : ∃ post : CallbackPost,
    unmodelledJob.callbackUrl = some post.url ∧ post.Carries .ascii (noModelResult unmodelledJob) ∧
      post.Signed (some (txt "hush")) := by
  have hJson : Value.dumpFailureEntries (noModelResult unmodelledJob).dump = none := by decide +kernel
  have hSecret : ∀ s, some (txt "hush") = some s → surrogateFree s = true := by
    rintro s ⟨⟩
    decide
  have hEvents : Yields (processJob .ascii exactPower plainDeps unmodelledJob : Bus .tree Result)
      (rowEvents (noModelResult unmodelledJob) (.startOf newYear2026) (.ok true) ++
        [⟨.deliverCallback (txt "http://127.0.0.1/done") (noModelResult unmodelledJob), .ok ()⟩])
      (.ok (noModelResult unmodelledJob)) :=
    .ask _ _ _ (.ask _ _ _ (.ask _ _ _ (.ret _)))
  obtain ⟨request, hRequest⟩ := @exists_callbackRequest_iff .ascii _ _ |>.mpr ⟨hJson, hSecret⟩
  have hPost : Yields (sendCallback .ascii (some (txt "hush")) (txt "http://127.0.0.1/done")
      (noModelResult unmodelledJob) : Program (httpInterface .tree) Empty (Except PyError Unit))
      [⟨.post (txt "http://127.0.0.1/done") request.1 request.2, .ok ⟨204, overflow ""⟩⟩] (.ok (.ok ())) := by
    rw [sendCallback, hRequest]
    exact .ask _ _ _ (.ret _)
  have hRun := (yields_handle_iff (overHttp .ascii (some (txt "hush")))).mpr ⟨_, hEvents,
    .cons (.ask _ _ _ (.ret _)) (.cons (.ask _ _ _ (.ret _)) (.cons hPost .nil))⟩
  obtain ⟨_, hPosts, _⟩ := callback_of_delivery hRun
  obtain ⟨result, ⟨completedAt, hWon⟩, hUrl, hCarries, hSigned⟩ := hPosts _ List.mem_cons_self
  have hResult : result = noModelResult unmodelledJob := by
    cases hWon with
    | tail _ hRow =>
      cases hRow with
      | head => rfl
      | tail _ hLast =>
        cases hLast with
        | tail _ hNil => cases hNil
  subst hResult
  exact ⟨_, hUrl, hCarries, hSigned⟩

end LlmBus
