import DnsRelay.Proofs.Forward.Delivery

/-!
# What a message can be answered with

`answered_iff` says which octets some run of a forwarder delivers for a message. An attempt on a forwarder that some run
has led to is a piece of a run, so what it yields was delivered.
-/

namespace DnsRelay

namespace Forwarder

/-- Some run of a forwarder sends the message, and waiting for its handle yields the octets. -/
def Answered (out : Outbound) (octets : Octets) : Prop :=
  ∃ config validator actions j now draws server sent,
    (start config validator).SentAt actions j now draws out server sent ∧
      (((start config validator).run actions).wait sent.handle).1 = .ok octets

namespace AnsweredAux

open DeliveryAux

/-- What is delivered for a message is a response with an id other than zero that repeats the question sent. -/
theorem parse_of_answered {out : Outbound} {octets : Octets} (h : Answered out octets) :
    ∃ source response wanted flip, Response.parse? octets source = .ok response ∧ response.id ≠ 0 ∧
      response.Echoes (randomizeCase wanted flip out).2 := by
  obtain ⟨config, validator, actions, j, now, draws, server, sent, hs, hw⟩ := h
  have hc : (start config validator).Coherent := coherent_start config validator
  have hsends := hs.sends hc
  have hmail := (result?_eq_ok_iff _ _ _).1 ((wait_eq_ok_iff _ _ _).1 hw)
  obtain ⟨i, source, ha, hi, hi', hm⟩ := (hsends.adds.delivered_iff hc hs.lt_length octets).1 hmail
  obtain ⟨⟨response, hp, hkey, hpasses⟩, -⟩ := ended_by hc ha hi hi' hm
  obtain ⟨k, -, hid⟩ := hsends.drawn
  refine ⟨source, response, _, _, hp, ?_, hpasses.echoes⟩
  have hresponse : sent.handle.id = response.id := congrArg Prod.fst hkey
  rw [← hresponse, hid]
  exact (draws.id k).property

/-- A forwarder that has sent nothing and may send something sends any message, under the first id drawn. -/
theorem send_start (config : ForwardConfig) (validator : Validator) (hmax : 0 < config.maxPending) (now : Nat)
    (draws : Draws) (out : Outbound) (server : Endpoint) :
    ∃ sent f', (start config validator).send now draws none out ⟨server, .udp⟩ = (.ok sent, f') ∧
      (start config validator).Sends now draws out server sent f' ∧ sent.handle.id = (draws.id 0).val := by
  have hc : (start config validator).Coherent := coherent_start config validator
  generalize hf : start config validator = f at hc ⊢
  have hlive : f.live = [] := by rw [← hf, live_start]
  have hcapacity : f.table.capacity = config.maxPending := by rw [← hf]; rfl
  obtain ⟨token, table, hreg⟩ : ∃ token table, f.table.register (f.queryFor now draws out server (draws.id 0).val)
      f.mailboxes.size = .ok (token, table) := by
    rcases hc.table.register_cases (f.queryFor now draws out server (draws.id 0).val) f.mailboxes.size with
      ⟨-, r, hr, -⟩ | ⟨-, -, hle⟩ | ⟨token, table, he, -⟩
    · rw [hlive] at hr
      cases hr
    · rw [hlive, hcapacity] at hle
      exact absurd hle (Nat.not_le.2 hmax)
    · exact ⟨token, table, he⟩
  have hfresh : f.registerFresh (f.queryFor now draws out server) draws.id maxIdAttempts 0 =
      .ok (token, (draws.id 0).val, table) := by
    have hsome : maxIdAttempts = 15 + 1 := rfl
    rw [hsome, registerFresh, hreg]
  unfold queryFor at hfresh
  have hprepare : f.prepare now draws out server = .ok (⟨⟨token, (draws.id 0).val, f.mailboxes.size, server.canonical⟩,
      (randomizeCase f.config.caseRandomization draws.flip out).1.setId (draws.id 0).val⟩,
      { f with table, mailboxes := f.mailboxes.push .waiting }) := by
    simp only [prepare, bind, Except.bind, pure, Except.pure, hfresh]
  refine ⟨_, _, ?_, hc.prepare_ok hprepare, rfl⟩
  rw [send, hprepare]

/-- A response with an id other than zero that repeats the question sent is delivered, if it comes from the server asked and the
validator allows as many answers. -/
theorem answered_of_parse {out : Outbound} {octets : Octets} {source : Endpoint} {response : Response} {wanted : Bool}
    {flip : Nat → Bool} (hp : Response.parse? octets source = .ok response) (hid : response.id ≠ 0)
    (hq : response.Echoes (randomizeCase wanted flip out).2) : Answered out octets := by
  let config : ForwardConfig := ⟨0, 1, wanted⟩
  let validator : Validator := ⟨response.answers.length, none⟩
  let draws : Draws := ⟨fun _ => ⟨response.id, hid⟩, flip⟩
  obtain ⟨sent, f', hsend, hs, hdrawn⟩ := send_start config validator Nat.one_pos 0 draws out source
  have hmem := hs.adds.mem
  generalize hr : (⟨sent.handle.token, (start config validator).queryFor 0 draws out source sent.handle.id,
    sent.handle.mailbox⟩ : Registration Nat) = r at hmem
  have hquery : r.query = ⟨response.id, (randomizeCase wanted flip out).2, out.client, source.canonical, 0, out.kind⟩ := by
    rw [← hr, hdrawn]
    rfl
  have hkey : r.key = (response.id, source.canonical) := by rw [Registration.key, hquery]
  have hpasses : f'.validator.Passes response r.query := by
    rw [hs.adds.validator, hquery]
    refine ⟨hq, Nat.le_refl _, ?_⟩
    intro _ blocked hb
    cases hb
  have hv : f'.validator.validate response r.query = .ok () := by
    refine (Validator.validate_ok_of_matching _ _ _ ?_ ?_).2 hpasses
    · rw [hquery]
    · rw [hquery, Response.source_of_parse? hp, Endpoint.canonical_canonical]
  obtain ⟨-, -, hends⟩ := hs.adds.coherent.receive_delivered hp hmem hkey hv
  refine ⟨config, validator, [.send 0 draws none out ⟨source, .udp⟩, .meet (.datagram octets source)], 0, 0, draws, source,
    sent, ⟨none, .udp, rfl, by rw [after, List.take_zero, run, List.foldl_nil, hsend]⟩, ?_⟩
  have hmailbox : sent.handle.mailbox = r.payload := by rw [← hr]
  rw [wait_eq_ok_iff, result?_eq_ok_iff, hmailbox, run, List.foldl_cons, List.foldl_cons, List.foldl_nil, act, hsend]
  exact hends.ended r hmem (by simp)

end AnsweredAux

open AnsweredAux

/-- Octets are what some run delivers for a message iff they are a response with an id other than zero that repeats the
question of the message in a case in which it can be sent. -/
theorem answered_iff (out : Outbound) (octets : Octets) :
    Answered out octets ↔ ∃ source response wanted flip, Response.parse? octets source = .ok response ∧ response.id ≠ 0 ∧
      response.Echoes (randomizeCase wanted flip out).2 := by
  constructor
  · exact parse_of_answered
  · rintro ⟨source, response, wanted, flip, hp, hid, hq⟩
    exact answered_of_parse hp hid hq

/-! ## Attempts -/

/-- Meeting events is a piece of a run. -/
theorem run_map_meet (f : Forwarder) (events : List Event) : f.run (events.map .meet) = events.foldl meet f := by
  rw [run, List.foldl_map]
  rfl

/-- A piece of a run leads from one state that a run leads to to another one. -/
theorem Reachable.run {f : Forwarder} (h : f.Reachable) (actions : List Action) : (f.run actions).Reachable := by
  obtain ⟨config, validator, before, rfl⟩ := h
  exact ⟨config, validator, before ++ actions, run_append _ _ _⟩

/-- An attempt is a piece of a run, and what it yields was delivered. -/
theorem Reachable.attempt {f : Forwarder} (h : f.Reachable) (c : Conditions) (resolver : Resolver) (out : Outbound) :
    (f.attempt c resolver out).2.Reachable ∧
      ∀ octets, (f.attempt c resolver out).1 = .ok octets → Answered out octets := by
  have hsent : (f.send c.now c.draws c.failure out resolver).2.Reachable :=
    h.run [.send c.now c.draws c.failure out resolver]
  unfold Forwarder.attempt
  split
  · rename_i e f₁ he
    rw [he] at hsent
    exact ⟨hsent, nofun⟩
  · rename_i sent f₁ hs
    rw [hs] at hsent
    have hmet := hsent.run ((c.eventsFor resolver.transport sent).map .meet)
    rw [← run_map_meet]
    refine ⟨hmet.run [.wait sent.handle], fun octets hw => ?_⟩
    obtain ⟨config, validator, before, rfl⟩ := h
    refine ⟨config, validator, before ++ .send c.now c.draws c.failure out resolver ::
      (c.eventsFor resolver.transport sent).map .meet, before.length, c.now, c.draws, resolver.endpoint, sent,
      ⟨c.failure, resolver.transport, by simp, ?_⟩, ?_⟩
    · rw [after, List.take_left, hs]
    · have hact : ((start config validator).run before).act (.send c.now c.draws c.failure out resolver) = f₁ := by
        rw [act, hs]
      rw [run_append, Forwarder.run, List.foldl_cons, hact]
      exact hw

end Forwarder

/-- A way to send queries whose every success was delivered by some run of a forwarder. -/
def Sender.Genuine {σ : Type} (send : Sender σ) : Prop :=
  ∀ s resolver out octets, (send s resolver out).1 = .ok octets → Forwarder.Answered out octets

namespace Forwarder

/-- A forwarder that some run has led to, as a way to send queries: one attempt for each, under conditions that depend on what is
sent. -/
def sender (conditions : Resolver → Outbound → Conditions) : Sender { f : Forwarder // f.Reachable } :=
  fun f resolver out =>
    ((f.val.attempt (conditions resolver out) resolver out).1,
      ⟨(f.val.attempt (conditions resolver out) resolver out).2, (f.property.attempt _ resolver out).1⟩)

/-- Whatever conditions it meets, a forwarder yields what some run delivers. -/
theorem sender_genuine (conditions : Resolver → Outbound → Conditions) : (sender conditions).Genuine :=
  fun s resolver out octets h => (s.property.attempt (conditions resolver out) resolver out).2 octets h

end Forwarder

end DnsRelay
