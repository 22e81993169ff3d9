import Mathlib
import DnsRelay.Proofs.Forward.Run

/-!
# What is delivered

The main result, `delivery_authentic`, is about every run of a forwarder from its start: octets that a handle yields were
taken in by one action while the query of the handle was pending, they came from the server asked, and they passed every
check; no action completes two handles, and no handle is completed twice.
-/

namespace DnsRelay

namespace Forwarder

/-- The pending query of a handle. -/
def query? (f : Forwarder) (h : Handle) : Option PendingQuery :=
  (f.live.find? (·.named h.token)).map (·.query)

/-- The action number `j` of a run sends a message to a server, and `sent` is what was sent. -/
def SentAt (f : Forwarder) (actions : List Action) (j now : Nat) (draws : Draws) (out : Outbound) (server : Endpoint)
    (sent : Sent) : Prop :=
  ∃ failure transport, actions[j]? = some (.send now draws failure out ⟨server, transport⟩) ∧
    ((f.after actions j).send now draws failure out ⟨server, transport⟩).1 = .ok sent

/-- The action number `i` of a run takes in octets from a source and thereby completes a handle: its query is pending
before the action and not after it, and the octets are what has come of the handle. -/
structure CompletedAt (f : Forwarder) (actions : List Action) (i : Nat) (h : Handle) (octets : Octets)
    (source : Endpoint) : Prop where
  arrival : actions[i]?.bind Action.arrival? = some (octets, source)
  pending : (f.after actions i).query? h ≠ none
  done : (f.after actions (i + 1)).query? h = none
  result : (f.after actions (i + 1)).result? h = some (.ok octets)

/-! ## Helpers: handles and their results -/

namespace DeliveryAux

/-- The query of a handle is that of the registration its token names. -/
theorem query?_eq_some_iff {f : Forwarder} (h : f.Coherent) (handle : Handle) (query : PendingQuery) :
    f.query? handle = some query ↔ ∃ r ∈ f.live, r.token = handle.token ∧ r.query = query := by
  rw [query?, Option.map_eq_some_iff]
  constructor
  · rintro ⟨r, hr, rfl⟩
    exact ⟨r, List.mem_of_find?_eq_some hr, by simpa using List.find?_some hr, rfl⟩
  · rintro ⟨r, hr, ht, rfl⟩
    refine ⟨r, PendingTable.RepresentsAux.find?_eq_some hr (by simpa using ht) ?_, rfl⟩
    intro x hx hn
    exact h.table.eq_of_token hx hr (by rw [ht]; simpa using hn)

/-- A handle has yielded octets iff they are in its mailbox. -/
theorem result?_eq_ok_iff (f : Forwarder) (handle : Handle) (octets : Octets) :
    f.result? handle = some (.ok octets) ↔ f.mailboxes[handle.mailbox]? = some (.delivered octets) := by
  unfold result?
  split <;> simp_all

/-- Waiting yields octets iff they have come. -/
theorem wait_eq_ok_iff (f : Forwarder) (handle : Handle) (octets : Octets) :
    (f.wait handle).1 = .ok octets ↔ f.result? handle = some (.ok octets) := by
  unfold wait
  split
  · rename_i result hr
    simp [hr]
  · rename_i hr
    simp [hr]

end DeliveryAux

open DeliveryAux

/-! ## The life of a registration -/

section Life

variable {f : Forwarder} {actions : List Action} {j : Nat} {r : Registration Nat}

/-- What was sent is pending behind the action that sent it. -/
theorem SentAt.sends (h : f.Coherent) {now : Nat} {draws : Draws} {out : Outbound} {server : Endpoint} {sent : Sent}
    (hs : f.SentAt actions j now draws out server sent) :
    (f.after actions j).Sends now draws out server sent (f.after actions (j + 1)) := by
  obtain ⟨failure, transport, ha, hok⟩ := hs
  rw [after_succ f ha, act]
  exact (h.after actions j).send_ok (Prod.ext hok rfl)

/-- The action that sent a message is one of the run. -/
theorem SentAt.lt_length {now : Nat} {draws : Draws} {out : Outbound} {server : Endpoint} {sent : Sent}
    (hs : f.SentAt actions j now draws out server sent) : j < actions.length := by
  obtain ⟨failure, transport, ha, -⟩ := hs
  exact (List.getElem?_eq_some_iff.1 ha).1

/-- One action sends one message. -/
theorem SentAt.eq {now now' : Nat} {draws draws' : Draws} {out out' : Outbound} {server server' : Endpoint}
    {sent sent' : Sent} (hs : f.SentAt actions j now draws out server sent)
    (hs' : f.SentAt actions j now' draws' out' server' sent') : sent' = sent := by
  obtain ⟨failure, transport, ha, hok⟩ := hs
  obtain ⟨failure', transport', ha', hok'⟩ := hs'
  rw [ha] at ha'
  cases ha'
  rw [hok] at hok'
  cases hok'
  rfl

/-- A registration with the token of one that the action number `j` added is this one, and it is there only later. -/
theorem Adds.eq_of_token (h : f.Coherent) (e : (f.after actions j).Adds r (f.after actions (j + 1))) {k : Nat}
    {x : Registration Nat} (hx : x ∈ (f.after actions k).live) (ht : x.token = r.token) : j < k ∧ x = r := by
  have hr := e.mem
  by_cases hk : j < k
  · have hold : x.token.serial < (f.after actions (j + 1)).table.nextSerial := by
      rw [ht, e.serial, e.nextSerial]
      exact Nat.lt_succ_self _
    exact ⟨hk, (h.after actions (j + 1)).table.eq_of_token (h.mem_live_of_old hk hx hold) hr ht⟩
  · have hle := h.nextSerial_le actions (Nat.not_lt.1 hk)
    have hlt := (h.after actions k).table.fresh x hx
    rw [ht, e.serial] at hlt
    omega

/-- A registration that one action ended was pending from its own action up to that one. -/
theorem Adds.live_iff_le (h : f.Coherent) (e : (f.after actions j).Adds r (f.after actions (j + 1))) {i : Nat}
    (hi : r ∈ (f.after actions i).live) (hi' : r ∉ (f.after actions (i + 1)).live) {k : Nat} (hk : j < k) :
    r ∈ (f.after actions k).live ↔ k ≤ i := by
  have hold : ∀ n, j < n → r.token.serial < (f.after actions n).table.nextSerial := by
    intro n hn
    have hle := h.nextSerial_le actions hn
    rw [e.nextSerial] at hle
    rw [e.serial]
    omega
  constructor
  · intro hr
    by_contra hlt
    exact hi' (h.mem_live_of_old (by omega) hr (hold _ (by have := (e.eq_of_token h hi rfl).1; omega)))
  · intro hle
    exact h.mem_live_of_old hle hi (hold k hk)

/-- One action at most adds a registration. -/
theorem Adds.unique (h : f.Coherent) (e : (f.after actions j).Adds r (f.after actions (j + 1))) {j' : Nat}
    (e' : (f.after actions j').Adds r (f.after actions (j' + 1))) : j = j' := by
  have hr := e.mem
  have hr' := e'.mem
  have h1 := (e.eq_of_token h hr' rfl).1
  have h2 := (e'.eq_of_token h hr rfl).1
  omega

/-- At most one action ends a registration. -/
theorem Adds.ended_unique (h : f.Coherent) (e : (f.after actions j).Adds r (f.after actions (j + 1))) {i k : Nat}
    (hi : r ∈ (f.after actions i).live) (hi' : r ∉ (f.after actions (i + 1)).live) (hk : r ∈ (f.after actions k).live)
    (hk' : r ∉ (f.after actions (k + 1)).live) : k = i := by
  have hle := (e.live_iff_le h hi hi' (e.eq_of_token h hk rfl).1).1 hk
  have hge := (e.live_iff_le h hk hk' (e.eq_of_token h hi rfl).1).1 hi
  omega

/-- An action that ends one registration and keeps those with other tokens ends no registration that another action added. -/
theorem Adds.eq_of_ended (h : f.Coherent) (e : (f.after actions j).Adds r (f.after actions (j + 1))) {i j' : Nat}
    {r' : Registration Nat} (e' : (f.after actions j').Adds r' (f.after actions (j' + 1)))
    (hlive : (f.after actions (i + 1)).live = (f.after actions i).live.filter fun x => !x.named r.token)
    (hi : r' ∈ (f.after actions i).live) (hi' : r' ∉ (f.after actions (i + 1)).live) : j = j' := by
  have hnamed : r'.token = r.token := by
    rw [hlive, List.mem_filter, not_and] at hi'
    simpa using hi' hi
  have heq : r' = r := (e.eq_of_token h hi hnamed).2
  rw [heq] at e'
  exact e.unique h e'

/-- The query of the handle of a registration is pending while the registration is there. -/
theorem Adds.query?_eq (h : f.Coherent) (e : (f.after actions j).Adds r (f.after actions (j + 1))) {handle : Handle}
    (ht : handle.token = r.token) (k : Nat) :
    (f.after actions k).query? handle = if r ∈ (f.after actions k).live then some r.query else none := by
  split
  · rename_i hr
    exact (query?_eq_some_iff (h.after actions k) handle _).2 ⟨r, hr, ht.symm, rfl⟩
  · rename_i hr
    rw [Option.eq_none_iff_forall_ne_some]
    intro q hq
    obtain ⟨x, hx, hxt, -⟩ := (query?_eq_some_iff (h.after actions k) handle q).1 hq
    exact hr ((e.eq_of_token h hx (hxt.trans ht)).2 ▸ hx)

/-- For the handle of a registration, to be completed is to have the registration ended with octets in its mailbox. -/
theorem Adds.completedAt_iff (h : f.Coherent) (e : (f.after actions j).Adds r (f.after actions (j + 1)))
    {handle : Handle} (ht : handle.token = r.token) (hm : handle.mailbox = r.payload) (i : Nat) (octets : Octets)
    (source : Endpoint) :
    f.CompletedAt actions i handle octets source ↔ actions[i]?.bind Action.arrival? = some (octets, source) ∧
      r ∈ (f.after actions i).live ∧ r ∉ (f.after actions (i + 1)).live ∧
      (f.after actions (i + 1)).mailboxes[r.payload]? = some (.delivered octets) := by
  have hquery := e.query?_eq h ht
  have hresult := result?_eq_ok_iff (f.after actions (i + 1)) handle octets
  rw [hm] at hresult
  constructor
  · rintro ⟨ha, hp, hd, hr⟩
    rw [hquery] at hp hd
    exact ⟨ha, by simpa using hp, by simpa using hd, hresult.1 hr⟩
  · rintro ⟨ha, hp, hd, hr⟩
    refine ⟨ha, ?_, ?_, hresult.2 hr⟩
    · simp [hquery, hp]
    · simp [hquery, hd]

/-- An action that ends a registration with octets in its mailbox took these octets in, they were accepted for the
registration, and no other registration ended. -/
theorem ended_by (h : f.Coherent) {i : Nat} {octets : Octets} {source : Endpoint}
    (ha : actions[i]?.bind Action.arrival? = some (octets, source)) (hi : r ∈ (f.after actions i).live)
    (hi' : r ∉ (f.after actions (i + 1)).live)
    (hm : (f.after actions (i + 1)).mailboxes[r.payload]? = some (.delivered octets)) :
    (f.after actions i).Accepts octets source r ∧
      (f.after actions (i + 1)).live = (f.after actions i).live.filter fun x => !x.named r.token := by
  obtain ⟨a, ha, harr⟩ := Option.bind_eq_some_iff.1 ha
  rw [after_succ f ha] at hi' hm ⊢
  obtain ⟨source', harr', haccepts, hlive⟩ := ((h.after actions i).step a).ended r hi hi' octets hm
  rw [harr] at harr'
  cases harr'
  exact ⟨haccepts, hlive⟩

/-- Octets are in the mailbox of a registration after a run iff one action of the run ended it with these octets. -/
theorem Adds.delivered_iff (h : f.Coherent) (e : (f.after actions j).Adds r (f.after actions (j + 1)))
    (hj : j < actions.length) (octets : Octets) :
    (f.run actions).mailboxes[r.payload]? = some (.delivered octets) ↔
      ∃ i source, actions[i]?.bind Action.arrival? = some (octets, source) ∧ r ∈ (f.after actions i).live ∧
        r ∉ (f.after actions (i + 1)).live ∧
        (f.after actions (i + 1)).mailboxes[r.payload]? = some (.delivered octets) := by
  rw [← after_length]
  constructor
  · intro hn
    rcases live_or_ended hj e.mem with hr | ⟨i, -, hin, hi, hi'⟩
    · rw [((h.after actions _).waiting r.payload).2 ⟨r, hr, rfl⟩] at hn
      cases hn
    · have ha : actions[i]? = some actions[i] := List.getElem?_eq_getElem hin
      have hs := (h.after actions i).step actions[i]
      rw [← after_succ f ha] at hs
      have hlt := Nat.lt_of_lt_of_le ((h.after actions i).payload_lt hi) hs.size
      have hm := h.settled_after actions hin hlt (hs.not_waiting (h.after actions i) hi hi')
      rw [hn] at hm
      obtain ⟨source, harr, -⟩ := hs.ended r hi hi' octets hm.symm
      exact ⟨i, source, by rw [ha]; exact harr, hi, hi', hm.symm⟩
  · rintro ⟨i, source, ha, hi, -, hm⟩
    obtain ⟨a, ha, -⟩ := Option.bind_eq_some_iff.1 ha
    have hin : i < actions.length := (List.getElem?_eq_some_iff.1 ha).1
    have hlt := (Array.getElem?_eq_some_iff.1 hm).1
    rw [h.settled_after actions hin hlt (by rw [hm]; nofun), hm]

end Life

/-- Delivery is authentic, for every message that a run sends.
1. Waiting yields octets iff some action completed the handle with them.
2. The query is pending exactly from its sending to that action, and the octets are a response from the server asked, with the
id and the question, no more answers than allowed and no address that is blocked.
3. No action completes two handles.
4. No handle is completed twice. -/
theorem delivery_authentic (config : ForwardConfig) (validator : Validator) (actions : List Action) (j now : Nat)
    (draws : Draws) (out : Outbound) (server : Endpoint) (sent : Sent)
    (hs : (start config validator).SentAt actions j now draws out server sent) :
    let f := start config validator
    let query : PendingQuery := ⟨sent.handle.id, (randomizeCase config.caseRandomization draws.flip out).2, out.client,
      server.canonical, now, out.kind⟩
    (∀ octets, ((f.run actions).wait sent.handle).1 = .ok octets ↔
      ∃ i source, f.CompletedAt actions i sent.handle octets source) ∧
    (∀ i octets source, f.CompletedAt actions i sent.handle octets source →
      j < i ∧ (∀ k, (f.after actions k).query? sent.handle = if j < k ∧ k ≤ i then some query else none) ∧
      server.canonical = sent.handle.server ∧ source.canonical = sent.handle.server ∧
      ∃ response, Response.parse? octets source = .ok response ∧ response.id = sent.handle.id ∧
        response.question = some query.question ∧ response.answers.length ≤ validator.maxAnswers ∧
        (out.kind = .relay → ∀ blocked, validator.blocked = some blocked →
          ∀ x ∈ response.answers, ∀ a, x.address? = some a → blocked a = false)) ∧
    (∀ i octets source, f.CompletedAt actions i sent.handle octets source →
      ∀ j' now' draws' out' server' sent', f.SentAt actions j' now' draws' out' server' sent' →
      ∀ octets' source', f.CompletedAt actions i sent'.handle octets' source' → sent' = sent) ∧
    (∀ i octets source, f.CompletedAt actions i sent.handle octets source →
      ∀ i' octets' source', f.CompletedAt actions i' sent.handle octets' source' → i' = i) := by
  intro f query
  have h : f.Coherent := coherent_start config validator
  have hsends := hs.sends h
  have e := hsends.adds
  have hquery : (f.after actions j).queryFor now draws out server sent.handle.id = query := by
    rw [queryFor, (h.after_config actions j).1]
    rfl
  rw [hquery] at e
  generalize hr : (⟨sent.handle.token, query, sent.handle.mailbox⟩ : Registration Nat) = r at e
  have ht : sent.handle.token = r.token := by rw [← hr]
  have hm : sent.handle.mailbox = r.payload := by rw [← hr]
  have hq : r.query = query := by rw [← hr]
  have hiff := e.completedAt_iff h ht hm
  refine ⟨?_, ?_, ?_, ?_⟩
  · intro octets
    rw [wait_eq_ok_iff, result?_eq_ok_iff, hm, e.delivered_iff h hs.lt_length]
    simp only [hiff]
  · intro i octets source hc
    obtain ⟨ha, hi, hi', hmail⟩ := (hiff i octets source).1 hc
    obtain ⟨⟨response, hp, hkey, hpasses⟩, -⟩ := ended_by h ha hi hi' hmail
    rw [(h.after_config actions i).2, hq] at hpasses
    rw [Registration.key, hq, Prod.mk.injEq] at hkey
    refine ⟨(e.eq_of_token h hi rfl).1, ?_, hsends.server.symm, ?_, response, hp, hkey.1.symm, hpasses.echoes,
      hpasses.bounded, hpasses.unblocked⟩
    · intro k
      rw [e.query?_eq h ht, hq]
      by_cases hk : j < k
      · simp [e.live_iff_le h hi hi' hk, hk]
      · have hn : r ∉ (f.after actions k).live := fun hl => hk (e.eq_of_token h hl rfl).1
        simp [hn, hk]
    · rw [hsends.server, ← hkey.2]
  · intro i octets source hc j' now' draws' out' server' sent' hs' octets' source' hc'
    have hsends' := hs'.sends h
    have e' := hsends'.adds
    generalize hr' : (⟨sent'.handle.token, (f.after actions j').queryFor now' draws' out' server' sent'.handle.id,
      sent'.handle.mailbox⟩ : Registration Nat) = r' at e'
    obtain ⟨ha, hi, hi', hmail⟩ := (hiff i octets source).1 hc
    obtain ⟨-, hi₂, hi₂', -⟩ := (e'.completedAt_iff h (by rw [← hr']) (by rw [← hr']) i octets' source').1 hc'
    have hjj := e.eq_of_ended h e' (ended_by h ha hi hi' hmail).2 hi₂ hi₂'
    subst hjj
    exact hs.eq hs'
  · intro i octets source hc i' octets' source' hc'
    obtain ⟨-, hi, hi', -⟩ := (hiff i octets source).1 hc
    obtain ⟨-, hk, hk', -⟩ := (hiff i' octets' source').1 hc'
    exact e.ended_unique h hi hi' hk hk'

/-- A query for the addresses of `a.` goes out as one for `A.`. Of an answer for `a.` from the server, an answer for `A.`
from elsewhere and an answer for `A.` from the server, the last one is delivered. -/
theorem delivery_authentic_forged_first :
    let query : Octets := #[0, 0, 1, 0, 0, 1, 0, 0, 0, 0, 0, 0, 1, 97, 0, 0, 1, 0, 1]
    let forged : Octets := #[0, 7, 128, 0, 0, 1, 0, 0, 0, 0, 0, 0, 1, 97, 0, 0, 1, 0, 1]
    let answer : Octets := #[0, 7, 128, 0, 0, 1, 0, 0, 0, 0, 0, 0, 1, 65, 0, 0, 1, 0, 1]
    let out : Outbound := ⟨query, ⟨⟨[1, 97, 0]⟩, RRType.a, RRClass.internet⟩, .v4 0 0, .relay⟩
    let draws : Draws := ⟨fun _ => ⟨7, by decide⟩, fun _ => true⟩
    let actions := [Action.send 0 draws none out ⟨.v4 1 53, .udp⟩, .meet (.datagram forged (.v4 1 53)),
      .meet (.datagram answer (.v4 2 53)), .meet (.datagram answer (.v4 1 53))]
    let f := start ⟨1000, 1, true⟩ ⟨64, none⟩
    let handle : Handle := ⟨⟨0, 0⟩, 7, 0, .v4 1 53⟩
    ((f.run actions).wait handle).1 = .ok answer ∧ ∃ i source, f.CompletedAt actions i handle answer source := by
  intro query forged answer out draws actions f handle
  have hs : f.SentAt actions 0 0 draws out (.v4 1 53) ⟨handle, (query.overwrite 12 [1, 65, 0]).setId 7⟩ :=
    ⟨none, .udp, rfl, by cbv⟩
  have hw : ((f.run actions).wait handle).1 = .ok answer := by cbv
  exact ⟨hw, ((delivery_authentic _ _ actions 0 0 draws out (.v4 1 53) _ hs).1 answer).1 hw⟩

end Forwarder

end DnsRelay
