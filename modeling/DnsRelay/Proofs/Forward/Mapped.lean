import Mathlib
import DnsRelay.Proofs.Forward.Gap
import DnsRelay.Proofs.Forward.Outcome
import DnsRelay.Proofs.Pending.History

/-!
# Mapped addresses

Every place at which an address comes in takes it in canonical form, so that a mapped address there is as good as the plain
one. What is alike but for the forms of addresses (`Action.Alike`, `Conditions.Alike`, `PendingTable.Check.Alike`) is answered
in the same way and leaves the same state; the main result, `forms_interchangeable`, says so for runs.
-/

namespace DnsRelay

/-! ## Alike but for addresses -/

/-- The same query, with its server in some form. -/
def PendingQuery.Alike (query query' : PendingQuery) : Prop :=
  ∃ server, query.server.Alike server ∧ query' = { query with server }

/-- The same response, with its source in some form. -/
def Response.Alike (response response' : Response) : Prop :=
  ∃ source, response.source.Alike source ∧ response' = { response with source }

/-- The same handle, with its server in some form. -/
def Handle.Alike (handle handle' : Handle) : Prop :=
  ∃ server, handle.server.Alike server ∧ handle' = { handle with server }

/-- The same resolver, with its endpoint in some form. -/
def Resolver.Alike (resolver resolver' : Resolver) : Prop :=
  ∃ endpoint, resolver.endpoint.Alike endpoint ∧ resolver' = { resolver with endpoint }

/-- The same call of a table, with its address in some form. -/
inductive TableCall.Alike {P : Type} : TableCall P → TableCall P → Prop where
  | register {query query' : PendingQuery} {payload : P} :
      query.Alike query' → Alike (.register query payload) (.register query' payload)
  | lookup {id : UInt16} {source source' : Endpoint} : source.Alike source' → Alike (.lookup id source) (.lookup id source')
  | other (call : TableCall P) : Alike call call

/-- The same event, with its address in some form. -/
inductive Event.Alike : Event → Event → Prop where
  | datagram {octets : Octets} {source source' : Endpoint} : source.Alike source' →
      Alike (.datagram octets source) (.datagram octets source')
  | connectionReply {handle handle' : Handle} {octets : Octets} : handle.Alike handle' →
      Alike (.connectionReply handle octets) (.connectionReply handle' octets)
  | connectionFailed {handle handle' : Handle} {failure : LinkFailure} : handle.Alike handle' →
      Alike (.connectionFailed handle failure) (.connectionFailed handle' failure)
  | sweep (now : Nat) : Alike (.sweep now) (.sweep now)

/-- The same conditions, with the addresses of the events in some form. -/
structure Conditions.Alike (c c' : Conditions) : Prop where
  now : c'.now = c.now
  draws : c'.draws = c.draws
  failure : c'.failure = c.failure
  events : ∀ sent, List.Forall₂ Event.Alike (c.events sent) (c'.events sent)

/-- The same action, with its addresses in some form. -/
inductive Forwarder.Action.Alike : Action → Action → Prop where
  | send {now : Nat} {draws : Draws} {failure : Option LinkFailure} {out : Outbound} {resolver resolver' : Resolver} :
      resolver.Alike resolver' → Alike (.send now draws failure out resolver) (.send now draws failure out resolver')
  | meet {event event' : Event} : event.Alike event' → Alike (.meet event) (.meet event')
  | cancel {handle handle' : Handle} : handle.Alike handle' → Alike (.cancel handle) (.cancel handle')
  | wait {handle handle' : Handle} : handle.Alike handle' → Alike (.wait handle) (.wait handle')

/-! ## Tables and verdicts -/

namespace PendingTable

variable {P : Type}

/-- What is done with a table and a validator: the table is called, or a response is held against a query. -/
inductive Check (P : Type) where
  | call (call : TableCall P)
  | verdict (response : Response) (query : PendingQuery)

/-- The same, with each address in some form. -/
inductive Check.Alike : Check P → Check P → Prop where
  | call {call call' : TableCall P} : call.Alike call' → Alike (.call call) (.call call')
  | verdict {response response' : Response} {query query' : PendingQuery} :
      response.Alike response' → query.Alike query' → Alike (.verdict response query) (.verdict response' query')

/-- The answer of the table, or the verdict. -/
def check (v : Validator) (t : PendingTable P) : Check P → (TableAnswer P ⊕ Except RejectReason Unit) × PendingTable P
  | .call call => (.inl (t.answer call).1, (t.answer call).2)
  | .verdict response query => (.inr (v.validate response query), t)

/-- A query is registered as it is kept, whatever the form of its server. -/
theorem register_of_alike (t : PendingTable P) {query query' : PendingQuery} (h : query.Alike query') (payload : P) :
    t.register query' payload = t.register query payload := by
  obtain ⟨server, hserver, rfl⟩ := h
  rw [Endpoint.alike_iff] at hserver
  simp only [register, hserver]

/-- A query is looked up whatever the form of the source. -/
theorem lookup_of_alike (t : PendingTable P) (id : UInt16) {source source' : Endpoint} (h : source.Alike source') :
    t.lookup id source' = t.lookup id source := by
  rw [Endpoint.alike_iff] at h
  simp only [lookup, slotFor?, h]

/-- A call of a table is answered whatever the form of its address. -/
theorem answer_of_alike (t : PendingTable P) {call call' : TableCall P} (h : call.Alike call') :
    t.answer call' = t.answer call := by
  cases h with
  | register hquery => rw [answer, answer, t.register_of_alike hquery]
  | lookup hsource => rw [answer, answer, t.lookup_of_alike _ hsource]
  | other => rfl

end PendingTable

namespace Validator

/-- A response is held against a query whatever the forms of its source and of the server asked. -/
theorem validate_of_alike (v : Validator) {response response' : Response} {query query' : PendingQuery}
    (hresponse : response.Alike response') (hquery : query.Alike query') :
    v.validate response' query' = v.validate response query := by
  obtain ⟨source, hsource, rfl⟩ := hresponse
  obtain ⟨server, hserver, rfl⟩ := hquery
  rw [Endpoint.alike_iff] at hsource hserver
  simp only [validate, hsource, hserver]

/-- A response is turned away for its source iff it has the id of the query, and its source and the server asked are not
alike; both are told in canonical form. -/
theorem validate_eq_sourceMismatch_iff (v : Validator) (response : Response) (query : PendingQuery)
    (expected received : Endpoint) :
    v.validate response query = .error (.sourceMismatch expected received) ↔ response.id = query.id ∧
      ¬query.server.Alike response.source ∧ expected = query.server.canonical ∧ received = response.source.canonical := by
  rw [Endpoint.alike_iff]
  by_cases hid : response.id = query.id
  · by_cases hsource : query.server.canonical = response.source.canonical
    · rw [validate_error_of_matching v response query hid hsource]
      constructor
      · intro hfails
        cases hfails
      · rintro ⟨-, hne, -⟩
        exact absurd hsource hne
    · rw [validate_of_other_source v response query hid hsource]
      simp [hid, hsource, eq_comm]
  · simp [validate, hid]

end Validator

/-- What is done with a table and a validator gives the same whatever the forms of the addresses. -/
theorem PendingTable.check_of_alike {P : Type} (v : Validator) (t : PendingTable P) {c c' : Check P} (h : c.Alike c') :
    t.check v c' = t.check v c := by
  cases h with
  | call hcall => rw [check, check, t.answer_of_alike hcall]
  | verdict hresponse hquery => rw [check, check, v.validate_of_alike hresponse hquery]

/-! ## Forwarders -/

/-- Where a response is told to come from does not matter for reading it. -/
theorem Response.parse?_eq_map (octets : Octets) (source source' : Endpoint) :
    parse? octets source' = (parse? octets source).map fun response => { response with source := source' } := by
  unfold parse?
  cases Message.ofOctets? octets with
  | none => rfl
  | some m =>
    cases hresponse : m.isResponse with
    | false => simp [hresponse, Except.map]
    | true =>
      cases hqs : (Reader.ofMessage m).readQuestions m.questionCount.toNat with
      | error e => simp [hresponse, hqs, bind, Except.bind, Except.mapError, Except.map]
      | ok found =>
        cases hxs : found.2.readRecords m.answerCount.toNat with
        | error e => simp [hresponse, hqs, hxs, bind, Except.bind, Except.mapError, Except.map]
        | ok found' => simp [hresponse, hqs, hxs, bind, Except.bind, pure, Except.pure, Except.mapError, Except.map]

namespace Forwarder

/-- The same becomes of a message whatever the form of its source. -/
theorem receive_of_alike (f : Forwarder) (octets : Octets) {source source' : Endpoint} (h : source.Alike source') :
    f.receive octets source' = f.receive octets source := by
  rw [receive, receive, Response.parse?_eq_map octets source source']
  cases hp : Response.parse? octets source with
  | error e => rfl
  | ok response =>
    have hsource := Response.source_of_parse? hp
    have hresponse : response.Alike { response with source := source' } := ⟨source', hsource ▸ h, rfl⟩
    have hverdict (query : PendingQuery) :
        f.validator.validate { response with source := source' } query = f.validator.validate response query :=
      f.validator.validate_of_alike hresponse ⟨query.server, .same _, rfl⟩
    simp only [Except.map, f.table.lookup_of_alike response.id h, hverdict]

/-- The same query is sent whatever the form of its server. -/
theorem send_of_alike (f : Forwarder) (now : Nat) (draws : Draws) (failure : Option LinkFailure) (out : Outbound)
    {resolver resolver' : Resolver} (h : resolver.Alike resolver') :
    f.send now draws failure out resolver' = f.send now draws failure out resolver := by
  obtain ⟨endpoint, hendpoint, rfl⟩ := h
  rw [Endpoint.alike_iff] at hendpoint
  simp only [send, prepare, hendpoint]

/-- A handle is used whatever the form of its server, since the server is where its reply comes from and nothing else. -/
theorem handle_of_alike (f : Forwarder) {handle handle' : Handle} (h : handle.Alike handle') :
    f.cancel handle' = f.cancel handle ∧ f.wait handle' = f.wait handle ∧
      ∀ failure, f.connectionFailed handle' failure = f.connectionFailed handle failure := by
  obtain ⟨server, -, rfl⟩ := h
  exact ⟨rfl, rfl, fun _ => rfl⟩

/-- A forwarder does the same, and gives back the same, whatever the forms of the addresses. -/
theorem respond_of_alike (f : Forwarder) (a a' : Action) (h : a.Alike a') : f.respond a' = f.respond a := by
  cases h with
  | send hresolver => rw [respond, respond, f.send_of_alike _ _ _ _ hresolver]
  | meet hevent =>
    cases hevent with
    | datagram hsource => rw [respond, respond, f.receive_of_alike _ hsource]
    | connectionReply hhandle =>
      obtain ⟨server, hserver, rfl⟩ := hhandle
      rw [respond, respond, f.receive_of_alike _ hserver]
    | connectionFailed hhandle => rw [respond, respond, (f.handle_of_alike hhandle).2.2]
    | sweep => rfl
  | cancel hhandle => rw [respond, respond, (f.handle_of_alike hhandle).1]
  | wait hhandle => rw [respond, respond, (f.handle_of_alike hhandle).2.1]

/-! ## Exchanges -/

/-- A forwarder meets one event after another whatever the forms of the addresses. -/
theorem foldl_meet_of_alike (f : Forwarder) {events events' : List Event} (h : List.Forall₂ Event.Alike events events') :
    events'.foldl meet f = events.foldl meet f := by
  induction h generalizing f with
  | nil => rfl
  | @cons event event' _ _ hevent _ ih =>
    have hmeet : f.meet event' = f.meet event := by
      have hact := congrArg Prod.snd (f.respond_of_alike _ _ (.meet hevent))
      rwa [respond_snd, respond_snd] at hact
    rw [List.foldl_cons, List.foldl_cons, hmeet, ih]

/-- An attempt yields the same whatever the forms of the addresses that it meets. -/
theorem attempt_of_alike (f : Forwarder) {c c' : Conditions} (hc : c.Alike c') {resolver resolver' : Resolver}
    (h : resolver.Alike resolver') (out : Outbound) : f.attempt c' resolver' out = f.attempt c resolver out := by
  have htransport : resolver'.transport = resolver.transport := by
    obtain ⟨_, -, rfl⟩ := h
    rfl
  have hmeet (sent : Sent) (f : Forwarder) : (c'.eventsFor resolver'.transport sent).foldl meet f =
      (c.eventsFor resolver.transport sent).foldl meet f := by
    rw [Conditions.eventsFor, Conditions.eventsFor, htransport]
    split
    · rfl
    · exact f.foldl_meet_of_alike (hc.events sent)
  simp only [attempt, hc.now, hc.draws, hc.failure, f.send_of_alike _ _ _ out h, hmeet]

/-- A forwarder as a way to send queries, whatever state it is in: one attempt for each. -/
def asking (conditions : Resolver → Outbound → Conditions) : Sender Forwarder := fun f resolver out =>
  f.attempt (conditions resolver out) resolver out

/-- An exchange yields the same whatever the forms of the addresses of the resolvers and of what is met. -/
theorem exchange_of_alike {conditions conditions' : Resolver → Outbound → Conditions}
    (hc : ∀ resolver resolver' out, resolver.Alike resolver' → (conditions resolver out).Alike (conditions' resolver' out))
    (retry : Bool) (f : Forwarder) (out : Outbound) {first first' : Resolver} (hfirst : first.Alike first')
    {second second' : Option Resolver} (hsecond : Option.Rel Resolver.Alike second second') :
    exchange (asking conditions') retry f out first' second' = exchange (asking conditions) retry f out first second := by
  have hasking (f : Forwarder) {resolver resolver' : Resolver} (h : resolver.Alike resolver') :
      asking conditions' f resolver' out = asking conditions f resolver out := f.attempt_of_alike (hc _ _ _ h) h out
  unfold exchange
  rw [hasking f hfirst]
  generalize asking conditions f first out = attempted
  obtain ⟨result, f⟩ := attempted
  cases result with
  | ok octets => rfl
  | error e =>
    cases hsecond with
    | none => rfl
    | some hother => simp only [hasking f hother]

/-- Plain and mapped addresses are interchangeable, wherever they occur: actions, exchanges, calls of a table and verdicts
that differ in nothing else give the same answers and lead through the same states. A verdict tells two endpoints apart iff
they are not alike, and names them in canonical form, which is alike to what it is the form of and never mapped. -/
theorem forms_interchangeable :
    (∀ (f : Forwarder) (actions actions' : List Action), List.Forall₂ Action.Alike actions actions' →
      (transcript respond f actions').1 = (transcript respond f actions).1 ∧
        ∀ k, stateAt respond f actions' k = stateAt respond f actions k) ∧
    (∀ (f : Forwarder) (conditions conditions' : Resolver → Outbound → Conditions),
      (∀ resolver resolver' out, resolver.Alike resolver' → (conditions resolver out).Alike (conditions' resolver' out)) →
      ∀ retry out first first' second second', first.Alike first' → Option.Rel Resolver.Alike second second' →
        exchange (asking conditions') retry f out first' second' = exchange (asking conditions) retry f out first second) ∧
    (∀ (P : Type) (v : Validator) (t : PendingTable P) (checks checks' : List (PendingTable.Check P)),
      List.Forall₂ PendingTable.Check.Alike checks checks' →
      (transcript (PendingTable.check v) t checks').1 = (transcript (PendingTable.check v) t checks).1 ∧
        ∀ k, stateAt (PendingTable.check v) t checks' k = stateAt (PendingTable.check v) t checks k) ∧
    (∀ (v : Validator) (response : Response) (query : PendingQuery) (expected received : Endpoint),
      v.validate response query = .error (.sourceMismatch expected received) ↔ response.id = query.id ∧
        ¬query.server.Alike response.source ∧ expected = query.server.canonical ∧ received = response.source.canonical) ∧
    ∀ e : Endpoint, e.Alike e.canonical ∧
      ∀ bits flow scope number, e.canonical ≠ .v6 (Address.mapped bits) flow scope number := by
  refine ⟨?_, ?_, ?_, Validator.validate_eq_sourceMismatch_iff, fun e => ⟨e.alike_canonical, e.canonical_ne_mapped⟩⟩
  · intro f actions actions' h
    exact ⟨congrArg Prod.fst (transcript_congr respond_of_alike h f), stateAt_congr respond_of_alike h f⟩
  · intro f conditions conditions' hc retry out first first' second second' hfirst hsecond
    exact exchange_of_alike hc retry f out hfirst hsecond
  · intro P v t checks checks' h
    have hcheck (t : PendingTable P) (c c' : PendingTable.Check P) (hc : c.Alike c') : t.check v c' = t.check v c :=
      t.check_of_alike v hc
    exact ⟨congrArg Prod.fst (transcript_congr hcheck h t), stateAt_congr hcheck h t⟩

/-- The query goes to a mapped address; the reply comes from the plain one, and is delivered as if the query had gone there.
Held against the query itself, and then against one that asked a neighbour, it has the verdicts that it would have between
plain addresses. -/
theorem forms_interchangeable_mixed :
    let query : Octets := #[0, 0, 1, 0, 0, 1, 0, 0, 0, 0, 0, 0, 1, 97, 0, 0, 1, 0, 1]
    let reply : Octets := #[0, 7, 129, 128, 0, 1, 0, 0, 0, 0, 0, 0, 1, 97, 0, 0, 1, 0, 1]
    let q : Question := ⟨⟨[1, 97, 0]⟩, RRType.a, RRClass.internet⟩
    let out : Outbound := ⟨query, q, .v4 0 0, .relay⟩
    let draws : Draws := ⟨fun _ => ⟨7, by decide⟩, fun _ => false⟩
    let mapped (bits : BitVec 32) : Endpoint := .v6 (Address.mapped bits) 9 3 53
    let handle : Handle := ⟨⟨0, 0⟩, 7, 0, .v4 1 53⟩
    let actions : List Action := [.send 0 draws none out ⟨.v4 1 53, .udp⟩, .meet (.datagram reply (.v4 1 53)), .wait handle]
    let actions' : List Action :=
      [.send 0 draws none out ⟨mapped 1, .udp⟩, .meet (.datagram reply (.v4 1 53)), .wait { handle with server := mapped 1 }]
    let response : Response := ⟨7, .noError, false, some q, [], .v4 1 53⟩
    let asked (server : Endpoint) : PendingQuery := ⟨7, q, .v4 0 0, server, 0, .relay⟩
    let checks : List (PendingTable.Check Nat) := [.verdict response (asked (.v4 1 53)), .verdict response (asked (.v4 2 53))]
    let checks' : List (PendingTable.Check Nat) := [.verdict response (asked (mapped 1)), .verdict response (asked (mapped 2))]
    List.Forall₂ Action.Alike actions actions' ∧
      (transcript respond (start ⟨1000, 4, false⟩ ⟨64, none⟩) actions').1 =
        [.sent (.ok ⟨handle, query.setId 7⟩), .judged .delivered, .waited (.ok reply)] ∧
      List.Forall₂ PendingTable.Check.Alike checks checks' ∧
      (transcript (PendingTable.check ⟨64, none⟩) (.empty 4) checks').1 =
        [.inr (.ok ()), .inr (.error (.sourceMismatch (.v4 2 53) (.v4 1 53)))] := by
  intro query reply q out draws mapped handle actions actions' response asked checks checks'
  have hmapped (bits : BitVec 32) : (Endpoint.v4 bits 53).Alike (mapped bits) := .forms .plain (.mapped 9 3)
  have hactions : List.Forall₂ Action.Alike actions actions' :=
    .cons (.send ⟨_, hmapped 1, rfl⟩) (.cons (.meet (.datagram (.same _))) (.cons (.wait ⟨_, hmapped 1, rfl⟩) .nil))
  have hchecks : List.Forall₂ PendingTable.Check.Alike checks checks' :=
    .cons (.verdict ⟨_, .same _, rfl⟩ ⟨_, hmapped 1, rfl⟩) (.cons (.verdict ⟨_, .same _, rfl⟩ ⟨_, hmapped 2, rfl⟩) .nil)
  have hruns := (forms_interchangeable.1 (start ⟨1000, 4, false⟩ ⟨64, none⟩) actions actions' hactions).1
  have hverdicts := (forms_interchangeable.2.2.1 Nat ⟨64, none⟩ (.empty 4) checks checks' hchecks).1
  refine ⟨hactions, hruns.trans ?_, hchecks, hverdicts.trans ?_⟩
  · cbv
  · cbv

end Forwarder

end DnsRelay
