import DnsRelay.Proofs.Forward.ArrivalOrder
import DnsRelay.Proofs.Forward.Delivery

/-!
# What completes a query that was sent over a connection

Whatever arrives is held against the one table of pending queries, by the id and the server, and no entry tells how its query was
sent. So a query that was sent over a connection of its own can be completed by octets that came over another connection to the
same server, or in a datagram, if they pass the checks (`completed_over_other_link`). The main result,
`over_connection_completed_iff`, says for every run what completes such a query, and that nothing else does.
-/

namespace DnsRelay

namespace Forwarder

/-- How an action can bring octets from a source to a forwarder, seen from one handle: over the connection of the handle, over
that of another one, or in a datagram. -/
inductive Brings (h : Handle) (octets : Octets) : Endpoint → Action → Prop where
  | ownConnection : Brings h octets h.server (.meet (.connectionReply h octets))
  | otherConnection {other : Handle} : other ≠ h → Brings h octets other.server (.meet (.connectionReply other octets))
  | datagram {source : Endpoint} : Brings h octets source (.meet (.datagram octets source))

/-- The octets that a forwarder takes in come in one of these ways. -/
theorem arrival?_eq_some_iff (h : Handle) (a : Action) (octets : Octets) (source : Endpoint) :
    a.arrival? = some (octets, source) ↔ Brings h octets source a := by
  constructor
  · intro harrival
    cases a with
    | send => cases harrival
    | meet event =>
      cases event with
      | datagram => cases harrival; exact .datagram
      | connectionReply other =>
        cases harrival
        by_cases hother : other = h
        · subst hother
          exact .ownConnection
        · exact .otherConnection hother
      | connectionFailed => cases harrival
      | sweep => cases harrival
    | cancel => cases harrival
    | wait => cases harrival
  · intro hbrings
    cases hbrings <;> rfl

section Completion

variable {f : Forwarder} {actions : List Action} {j : Nat} {r : Registration Nat}

/-- Octets that are accepted for a pending query end it, and go into its mailbox. -/
theorem Coherent.delivered_of_accepts (h : f.Coherent) {a : Action} {octets : Octets} {source : Endpoint}
    (ha : a.arrival? = some (octets, source)) (hr : r ∈ f.live) (haccepts : f.Accepts octets source r) :
    r ∉ (f.act a).live ∧ (f.act a).mailboxes[r.payload]? = some (.delivered octets) := by
  have hact : f.act a = (f.receive octets source).2 := by
    cases (arrival?_eq_some_iff ⟨⟨0, 0⟩, 0, 0, source⟩ a octets source).1 ha <;> rfl
  obtain ⟨response, hp, hkey, hpasses⟩ := haccepts
  have hgone := (h.accepts_iff hp hr).2 ⟨hkey, hpasses⟩
  obtain ⟨hends, -⟩ := h.receive_ends octets source
  rw [hact]
  refine ⟨fun hr' => ?_, hends.ended r hr hgone⟩
  rw [hends.live, List.mem_filter, hgone] at hr'
  cases hr'.2

/-- Octets are in the mailbox of a query after a run iff some action took them in while the query was pending, and they were
accepted for it. -/
theorem Adds.delivered_iff_accepts (h : f.Coherent) (e : (f.after actions j).Adds r (f.after actions (j + 1)))
    (hj : j < actions.length) (octets : Octets) :
    (f.run actions).mailboxes[r.payload]? = some (.delivered octets) ↔
      ∃ i a source, actions[i]? = some a ∧ a.arrival? = some (octets, source) ∧ r ∈ (f.after actions i).live ∧
        (f.after actions i).Accepts octets source r := by
  rw [e.delivered_iff h hj]
  constructor
  · rintro ⟨i, source, harrival, hi, hi', hbox⟩
    have haccepts := (ended_by h harrival hi hi' hbox).1
    obtain ⟨a, ha, harrival⟩ := Option.bind_eq_some_iff.1 harrival
    exact ⟨i, a, source, ha, harrival, hi, haccepts⟩
  · rintro ⟨i, a, source, ha, harrival, hi, haccepts⟩
    obtain ⟨hi', hbox⟩ := (h.after actions i).delivered_of_accepts harrival hi haccepts
    rw [← after_succ f ha] at hi' hbox
    exact ⟨i, source, by rw [ha]; exact harrival, hi, hi', hbox⟩

end Completion

open DeliveryAux

/-- A query that was sent over a connection is completed with octets iff some action brings them while the query is pending,
be it over its own connection, over another one or in a datagram, and they come from the server asked, in whichever form of
its address, have the id of the query and pass the later checks. -/
theorem over_connection_completed_iff (config : ForwardConfig) (validator : Validator) (actions : List Action) (j now : Nat)
    (draws : Draws) (failure : Option LinkFailure) (out : Outbound) (server : Endpoint) (sent : Sent)
    (ha : actions[j]? = some (.send now draws failure out ⟨server, .tcp⟩))
    (hok : (((start config validator).after actions j).send now draws failure out ⟨server, .tcp⟩).1 = .ok sent)
    (octets : Octets) :
    let f := start config validator
    let query : PendingQuery := ⟨sent.handle.id, (randomizeCase config.caseRandomization draws.flip out).2, out.client,
      server.canonical, now, out.kind⟩
    ((f.run actions).wait sent.handle).1 = .ok octets ↔
      ∃ i a source response, actions[i]? = some a ∧ (f.after actions i).query? sent.handle = some query ∧
        Brings sent.handle octets source a ∧ source.canonical = server.canonical ∧
        Response.parse? octets source = .ok response ∧ response.id = sent.handle.id ∧ validator.Passes response query := by
  intro f query
  have h : f.Coherent := coherent_start config validator
  have hs : f.SentAt actions j now draws out server sent := ⟨failure, .tcp, ha, hok⟩
  have e := (hs.sends h).adds
  have hquery : (f.after actions j).queryFor now draws out server sent.handle.id = query := by
    rw [queryFor, (h.after_config actions j).1]
    rfl
  rw [hquery] at e
  generalize hr : (⟨sent.handle.token, query, sent.handle.mailbox⟩ : Registration Nat) = r at e
  have ht : sent.handle.token = r.token := by rw [← hr]
  have hm : sent.handle.mailbox = r.payload := by rw [← hr]
  have hq : r.query = query := by rw [← hr]
  have hlive : ∀ i, (f.after actions i).query? sent.handle = some query ↔ r ∈ (f.after actions i).live := by
    intro i
    rw [e.query?_eq h ht, hq]
    simp
  have haccepts : ∀ i source, (f.after actions i).Accepts octets source r ↔ source.canonical = server.canonical ∧
      ∃ response, Response.parse? octets source = .ok response ∧ response.id = sent.handle.id ∧
        validator.Passes response query := by
    intro i source
    rw [Accepts, (h.after_config actions i).2, Registration.key, hq]
    constructor
    · rintro ⟨response, hp, hkey, hpasses⟩
      obtain ⟨hid, hsource⟩ := Prod.mk.inj hkey
      exact ⟨hsource.symm, response, hp, hid.symm, hpasses⟩
    · rintro ⟨hsource, response, hp, hid, hpasses⟩
      exact ⟨response, hp, by rw [hsource, hid], hpasses⟩
  rw [wait_eq_ok_iff, result?_eq_ok_iff, hm, e.delivered_iff_accepts h hs.lt_length]
  constructor
  · rintro ⟨i, a, source, ha, harrival, hi, hacc⟩
    obtain ⟨hsource, response, hp, hid, hpasses⟩ := (haccepts i source).1 hacc
    exact ⟨i, a, source, response, ha, (hlive i).2 hi, (arrival?_eq_some_iff _ _ _ _).1 harrival, hsource, hp, hid, hpasses⟩
  · rintro ⟨i, a, source, response, ha, hi, hbrings, hsource, hp, hid, hpasses⟩
    exact ⟨i, a, source, ha, (arrival?_eq_some_iff _ _ _ _).2 hbrings, (hlive i).1 hi,
      (haccepts i source).2 ⟨hsource, response, hp, hid, hpasses⟩⟩

/-- A query for the addresses of `a.` is sent over a connection, and its own connection brings the answer. -/
theorem over_connection_completed_own :
    let query : Octets := #[0, 0, 1, 0, 0, 1, 0, 0, 0, 0, 0, 0, 1, 97, 0, 0, 1, 0, 1]
    let answer : Octets := #[0, 7, 128, 0, 0, 1, 0, 0, 0, 0, 0, 0, 1, 97, 0, 0, 1, 0, 1]
    let question : Question := ⟨⟨[1, 97, 0]⟩, RRType.a, RRClass.internet⟩
    let out : Outbound := ⟨query, question, .v4 2 53, .relay⟩
    let draws : Draws := ⟨fun _ => ⟨7, by decide⟩, fun _ => false⟩
    let sent : Sent := ⟨⟨⟨0, 0⟩, 7, 0, .v4 1 53⟩, query.setId 7⟩
    let actions := [Action.send 0 draws none out ⟨.v4 1 53, .tcp⟩, .meet (.connectionReply sent.handle answer)]
    let f := start ⟨1000, 1, false⟩ ⟨64, none⟩
    actions[0]? = some (.send 0 draws none out ⟨.v4 1 53, .tcp⟩) ∧
      ((f.after actions 0).send 0 draws none out ⟨.v4 1 53, .tcp⟩).1 = .ok sent ∧
      ∃ i a source response, actions[i]? = some a ∧
        (f.after actions i).query? sent.handle = some ⟨7, question, .v4 2 53, .v4 1 53, 0, .relay⟩ ∧
        Brings sent.handle answer source a ∧ source.canonical = .v4 1 53 ∧ Response.parse? answer source = .ok response ∧
        response.id = 7 ∧ Validator.Passes ⟨64, none⟩ response ⟨7, question, .v4 2 53, .v4 1 53, 0, .relay⟩ := by
  intro query answer question out draws sent actions f
  have hok : ((f.after actions 0).send 0 draws none out ⟨.v4 1 53, .tcp⟩).1 = .ok sent := by cbv
  have hw : ((f.run actions).wait sent.handle).1 = .ok answer := by cbv
  exact ⟨rfl, hok,
    (over_connection_completed_iff _ _ actions 0 0 draws none out (.v4 1 53) sent rfl hok answer).1 hw⟩

/-- Its own connection is not needed for that. If a datagram that is told to come from the server brings the answer, or the
connection of another query to the same server does, then the handle yields it, though no reply came over the connection that was
opened for it. -/
theorem completed_over_other_link :
    let query : Octets := #[0, 0, 1, 0, 0, 1, 0, 0, 0, 0, 0, 0, 1, 97, 0, 0, 1, 0, 1]
    let answer : Octets := #[0, 7, 128, 0, 0, 1, 0, 0, 0, 0, 0, 0, 1, 97, 0, 0, 1, 0, 1]
    let out : Outbound := ⟨query, ⟨⟨[1, 97, 0]⟩, RRType.a, RRClass.internet⟩, .v4 2 53, .relay⟩
    let draws : Draws := ⟨fun _ => ⟨7, by decide⟩, fun _ => false⟩
    let drawsOther : Draws := ⟨fun _ => ⟨8, by decide⟩, fun _ => false⟩
    let server : Resolver := ⟨.v4 1 53, .tcp⟩
    let sent : Sent := ⟨⟨⟨0, 0⟩, 7, 0, .v4 1 53⟩, query.setId 7⟩
    let other : Sent := ⟨⟨⟨1, 1⟩, 8, 1, .v4 1 53⟩, query.setId 8⟩
    let f := start ⟨1000, 2, false⟩ ⟨64, none⟩
    let byDatagram := [Action.send 0 draws none out server, .meet (.datagram answer (.v4 1 53))]
    let byOther := [Action.send 0 draws none out server, .send 0 drawsOther none out server,
      .meet (.connectionReply other.handle answer)]
    (f.send 0 draws none out server).1 = .ok sent ∧
      ((f.after byOther 1).send 0 drawsOther none out server).1 = .ok other ∧ other.handle ≠ sent.handle ∧
      ((f.run byDatagram).wait sent.handle).1 = .ok answer ∧ ((f.run byOther).wait sent.handle).1 = .ok answer ∧
      ∀ octets, Action.meet (.connectionReply sent.handle octets) ∉ byDatagram ++ byOther := by
  intro query answer out draws drawsOther server sent other f byDatagram byOther
  refine ⟨by cbv, by cbv, by decide, by cbv, by cbv, fun octets hmem => ?_⟩
  simp [byDatagram, byOther, sent, other] at hmem

end Forwarder

end DnsRelay
