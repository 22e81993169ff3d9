import DnsRelay.Proofs.Forward.Run
import DnsRelay.Proofs.Pending.Gap
import DnsRelay.Proofs.Transcript

/-!
# Forwarders with a gap

`Forwarder.Mirrors` relates a forwarder without a gap to one with it: the tables are related, and there is one mailbox more.
Whatever is done with both of them they give back the same (`Mirrors.run`), on the handles that each of them gives out
(`Gap.handle`).
-/

namespace DnsRelay

open Forwarder (Action Sent)

namespace Gap

/-- The handle that is given out in place of another one. -/
def handle (g : Gap) (h : Handle) : Handle :=
  { h with token := g.token h.token, mailbox := past g.mailbox h.mailbox }

/-- What is sent in place of something else. -/
def sent (g : Gap) (s : Sent) : Sent :=
  { s with handle := g.handle s.handle }

/-- The event for the handles that are given out in place of others. -/
def event (g : Gap) : Event → Event
  | .connectionReply h octets => .connectionReply (g.handle h) octets
  | .connectionFailed h failure => .connectionFailed (g.handle h) failure
  | other => other

/-- The action on the handles that are given out in place of others. -/
def action (g : Gap) : Action → Action
  | .meet event => .meet (g.event event)
  | .cancel h => .cancel (g.handle h)
  | .wait h => .wait (g.handle h)
  | other => other

end Gap

namespace Forwarder

/-- What an action gives back. -/
inductive Reply where
  | nothing
  | sent (result : Except ForwardError Sent)
  | judged (outcome : Outcome)
  | swept (count : Nat)
  | waited (result : Except ForwardError Octets)
  deriving DecidableEq, Repr

/-- A forwarder acts, and gives something back. -/
def respond (f : Forwarder) : Action → Reply × Forwarder
  | .send now draws failure out resolver =>
    let (result, f) := f.send now draws failure out resolver
    (.sent result, f)
  | .meet (.datagram octets source) =>
    let (outcome, f) := f.receive octets source
    (.judged outcome, f)
  | .meet (.connectionReply h octets) =>
    let (outcome, f) := f.receive octets h.server
    (.judged outcome, f)
  | .meet (.connectionFailed h failure) => (.nothing, f.connectionFailed h failure)
  | .meet (.sweep now) =>
    let (count, f) := f.sweep now
    (.swept count, f)
  | .cancel h => (.nothing, f.cancel h)
  | .wait h =>
    let (result, f) := f.wait h
    (.waited result, f)

/-- What an action gives back does not matter for what it does. -/
theorem respond_snd (f : Forwarder) (a : Action) : (f.respond a).2 = f.act a := by
  cases a with
  | meet event => cases event <;> rfl
  | _ => rfl

/-- What several actions give back does not matter for what they do. -/
theorem transcript_respond_snd (f : Forwarder) (actions : List Action) : (transcript respond f actions).2 = f.run actions := by
  induction actions generalizing f with
  | nil => rfl
  | cons a actions ih =>
    rw [transcript_cons, run, List.foldl_cons, ih, respond_snd]
    rfl

end Forwarder

/-- What is given back in place of something else. -/
def Gap.reply (g : Gap) : Forwarder.Reply → Forwarder.Reply
  | .sent result => .sent (result.map g.sent)
  | other => other

/-! ## Mailboxes -/

/-- `boxes'` are the mailboxes `boxes` and one more, at the gap. -/
structure Gap.Widens (g : Gap) (boxes boxes' : Array Mailbox) : Prop where
  gap_le : g.mailbox ≤ boxes.size
  size : boxes'.size = boxes.size + 1
  same : ∀ m, boxes'[past g.mailbox m]? = boxes[m]?

namespace Gap.Widens

variable {g : Gap} {boxes boxes' : Array Mailbox}

/-- The next mailbox is the next one. -/
theorem past_size (h : g.Widens boxes boxes') : past g.mailbox boxes.size = boxes'.size := by
  rw [past_of_le h.gap_le, h.size]

/-- A new mailbox is added to both. -/
theorem push (h : g.Widens boxes boxes') (contents : Mailbox) : g.Widens (boxes.push contents) (boxes'.push contents) := by
  refine ⟨?_, ?_, ?_⟩
  · rw [Array.size_push]
    exact Nat.le_succ_of_le h.gap_le
  · rw [Array.size_push, Array.size_push, h.size]
  · intro m
    rw [Array.getElem?_push, Array.getElem?_push, h.same, ← h.past_size]
    simp only [past_inj]

/-- Something is put into the same mailbox of both. -/
theorem set (h : g.Widens boxes boxes') (m : Nat) (contents : Mailbox) :
    g.Widens (boxes.setIfInBounds m contents) (boxes'.setIfInBounds (past g.mailbox m) contents) := by
  have hlt : past g.mailbox m < boxes'.size ↔ m < boxes.size := by
    rw [← h.past_size, ← Nat.not_le, ← Nat.not_le, past_le_iff]
  refine ⟨?_, ?_, ?_⟩
  · rw [Array.size_setIfInBounds]
    exact h.gap_le
  · rw [Array.size_setIfInBounds, Array.size_setIfInBounds]
    exact h.size
  · intro k
    simp only [Array.getElem?_setIfInBounds, past_inj, hlt, h.same]

/-- Something is put into the same mailboxes of both. -/
theorem setAll (h : g.Widens boxes boxes') (gone : List (PendingQuery × Nat)) (contents : Mailbox) :
    g.Widens (gone.foldl (fun boxes entry => boxes.setIfInBounds entry.2 contents) boxes)
      ((gone.map fun entry => (entry.1, past g.mailbox entry.2)).foldl
        (fun boxes entry => boxes.setIfInBounds entry.2 contents) boxes') := by
  induction gone generalizing boxes boxes' with
  | nil => exact h
  | cons entry gone ih =>
    rw [List.map_cons, List.foldl_cons, List.foldl_cons]
    exact ih (h.set entry.2 contents)

end Gap.Widens

namespace Forwarder

/-- A query is prepared if it can be registered, with the next mailbox. -/
theorem prepare_eq (f : Forwarder) (now : Nat) (draws : Draws) (out : Outbound) (server : Endpoint) :
    f.prepare now draws out server =
      (f.registerFresh (f.queryFor now draws out server) draws.id maxIdAttempts 0).map fun (token, id, table) =>
        (⟨⟨token, id, f.mailboxes.size, server.canonical⟩,
            (randomizeCase f.config.caseRandomization draws.flip out).1.setId id⟩,
          { f with table, mailboxes := f.mailboxes.push .waiting }) := by
  rw [prepare]
  rfl

/-! ## What each operation does in the presence of a gap -/

/-- `f'` is `f` with a gap, and has counted one server more that could not be reached. -/
structure Mirrors (g : Gap) (f f' : Forwarder) : Prop where
  config : f'.config = f.config
  validator : f'.validator = f.validator
  table : f.table.Mirrors g f'.table
  stats : f'.stats = { f.stats with unreachable := f.stats.unreachable + 1 }
  mailboxes : g.Widens f.mailboxes f'.mailboxes

namespace Mirrors

variable {g : Gap} {f f' : Forwarder}

/-- The same counters move. -/
theorem withStats (h : f.Mirrors g f') {stats stats' : Stats}
    (hstats : stats' = { stats with unreachable := stats.unreachable + 1 }) :
    Mirrors g { f with stats } { f' with stats := stats' } :=
  ⟨h.config, h.validator, h.table, hstats, h.mailboxes⟩

/-- A query that is taken out of both tables is ended in both forwarders. -/
theorem ended (h : f.Mirrors g f') {t t' : PendingTable Nat} (ht : t.Mirrors g t') {stats stats' : Stats}
    (hstats : stats' = { stats with unreachable := stats.unreachable + 1 }) (mailbox : Nat) (contents : Mailbox) :
    Mirrors g ({ f with table := t, stats }.post mailbox contents)
      ({ f' with table := t', stats := stats' }.post (past g.mailbox mailbox) contents) :=
  ⟨h.config, h.validator, ht, hstats, h.mailboxes.set mailbox contents⟩

/-- The query of a token, if it is pending, is ended in both forwarders. -/
theorem clear (h : f.Mirrors g f') (token : Token) {stats stats' : Stats}
    (hstats : stats' = { stats with unreachable := stats.unreachable + 1 }) (contents : Mailbox) :
    Mirrors g
      (match f.table.clear token with
        | some ((_, mailbox), table) => { f with table, stats }.post mailbox contents
        | none => f)
      (match f'.table.clear (g.token token) with
        | some ((_, mailbox), table) => { f' with table, stats := stats' }.post mailbox contents
        | none => f') := by
  rcases h.table.clear token with ⟨hnone, hnone'⟩ | ⟨query, mailbox, t, t', hsome, hsome', ht⟩
  · rw [hnone, hnone']
    exact h
  · rw [hsome, hsome']
    exact h.ended ht hstats mailbox contents

/-- The same handle is given up. -/
theorem cancel (h : f.Mirrors g f') (handle : Handle) : (f.cancel handle).Mirrors g (f'.cancel (g.handle handle)) :=
  h.clear handle.token h.stats .closed

/-- One server more could not be reached. -/
theorem countUnreachable (h : f.Mirrors g f') : f.countUnreachable.Mirrors g f'.countUnreachable :=
  h.withStats (by rw [h.stats])

/-- The same connection fails. -/
theorem connectionFailed (h : f.Mirrors g f') (handle : Handle) (failure : LinkFailure) :
    (f.connectionFailed handle failure).Mirrors g (f'.connectionFailed (g.handle handle) failure) :=
  h.clear handle.token h.countUnreachable.stats (.failed (.unreachable failure))

/-- The same query is given up after twice the timeout. -/
theorem expire (h : f.Mirrors g f') (handle : Handle) : (f.expire handle).Mirrors g (f'.expire (g.handle handle)) :=
  h.clear handle.token (by rw [h.stats]) .closed

/-- The same has come of a handle. -/
theorem result? (h : f.Mirrors g f') (handle : Handle) : f'.result? (g.handle handle) = f.result? handle := by
  rw [Forwarder.result?, Forwarder.result?, Gap.handle, h.mailboxes.same]

/-- Waiting for a handle gives the same. -/
theorem wait (h : f.Mirrors g f') (handle : Handle) :
    (f'.wait (g.handle handle)).1 = (f.wait handle).1 ∧ (f.wait handle).2.Mirrors g (f'.wait (g.handle handle)).2 := by
  rw [Forwarder.wait, Forwarder.wait, h.result?]
  cases f.result? handle with
  | some result => exact ⟨rfl, h.cancel handle⟩
  | none => exact ⟨rfl, h.expire handle⟩

/-- The same becomes of a message. -/
theorem receive (h : f.Mirrors g f') (octets : Octets) (source : Endpoint) :
    (f'.receive octets source).1 = (f.receive octets source).1 ∧
      (f.receive octets source).2.Mirrors g (f'.receive octets source).2 := by
  rw [Forwarder.receive, Forwarder.receive]
  cases Response.parse? octets source with
  | error e => exact ⟨rfl, h.withStats (by rw [h.stats])⟩
  | ok response =>
    dsimp only
    rw [h.table.lookup]
    cases f.table.lookup response.id source with
    | none => exact ⟨rfl, h.withStats (by rw [h.stats])⟩
    | some found =>
      obtain ⟨token, query⟩ := found
      have hsame : f'.validator.validate response query = f.validator.validate response query := by rw [h.validator]
      dsimp only [Option.map_some]
      rw [hsame]
      cases f.validator.validate response query with
      | error reason => exact ⟨rfl, h.withStats (by rw [h.stats])⟩
      | ok _ =>
        dsimp only
        rcases h.table.clear token with ⟨hnone, hnone'⟩ | ⟨query, mailbox, t, t', hsome, hsome', ht⟩
        · rw [hnone, hnone']
          exact ⟨rfl, h.withStats (by rw [h.stats])⟩
        · rw [hsome, hsome']
          exact ⟨rfl, h.ended ht (by rw [h.stats]) mailbox (.delivered octets)⟩

/-- As many queries are swept. -/
theorem sweep (h : f.Mirrors g f') (now : Nat) :
    (f'.sweep now).1 = (f.sweep now).1 ∧ (f.sweep now).2.Mirrors g (f'.sweep now).2 := by
  obtain ⟨hgone, htable⟩ := h.table.purge now f.config.timeout
  rw [Forwarder.sweep, Forwarder.sweep, h.config]
  dsimp only
  rw [hgone, List.length_map]
  exact ⟨rfl, rfl, h.validator, htable, by rw [h.stats], h.mailboxes.setAll _ .closed⟩

/-- A query is registered under the same id in the same slot, or under none for the same reason. -/
theorem registerFresh (h : f.Mirrors g f') (query : UInt16 → PendingQuery) (id : Nat → TransactionId) (attempts next : Nat) :
    (∃ e, f.registerFresh query id attempts next = .error e ∧ f'.registerFresh query id attempts next = .error e) ∨
    ∃ token used t t', f.registerFresh query id attempts next = .ok (token, used, t) ∧
      f'.registerFresh query id attempts next = .ok (g.token token, used, t') ∧ t.Mirrors g t' := by
  induction attempts generalizing next with
  | zero => exact Or.inl ⟨.noFreeId, rfl, rfl⟩
  | succ attempts ih =>
    rw [Forwarder.registerFresh, Forwarder.registerFresh, ← h.mailboxes.past_size]
    rcases h.table.register (query (id next).val) f.mailboxes.size with ⟨e, he, he'⟩ | ⟨token, t, t', hok, hok', ht⟩
    · rw [he, he']
      cases e with
      | duplicateId => exact ih (next + 1)
      | full => exact Or.inl ⟨.queueFull, rfl, rfl⟩
    · rw [hok, hok']
      exact Or.inr ⟨token, (id next).val, t, t', rfl, rfl, ht⟩

/-- The same query is prepared, or none for the same reason. -/
theorem prepare (h : f.Mirrors g f') (now : Nat) (draws : Draws) (out : Outbound) (server : Endpoint) :
    (∃ e, f.prepare now draws out server = .error e ∧ f'.prepare now draws out server = .error e) ∨
    ∃ sent f₁ f₁', f.prepare now draws out server = .ok (sent, f₁) ∧
      f'.prepare now draws out server = .ok (g.sent sent, f₁') ∧ f₁.Mirrors g f₁' := by
  have hquery : f'.queryFor now draws out server = f.queryFor now draws out server := by
    funext id
    rw [queryFor, queryFor, h.config]
  rw [prepare_eq, prepare_eq, hquery, h.config]
  rcases h.registerFresh (f.queryFor now draws out server) draws.id maxIdAttempts 0 with
    ⟨e, he, he'⟩ | ⟨token, id, t, t', hok, hok', ht⟩
  · exact Or.inl ⟨e, by rw [he]; rfl, by rw [he']; rfl⟩
  · refine Or.inr ⟨_, _, { f' with table := t', mailboxes := f'.mailboxes.push .waiting }, congrArg (Except.map _) hok, ?_,
      ⟨h.config, h.validator, ht, h.stats, h.mailboxes.push .waiting⟩⟩
    rw [hok', Gap.sent, Gap.handle, h.mailboxes.past_size, h.config]
    rfl

/-- The same query is sent, or none for the same reason. -/
theorem send (h : f.Mirrors g f') (now : Nat) (draws : Draws) (failure : Option LinkFailure) (out : Outbound)
    (resolver : Resolver) :
    (f'.send now draws failure out resolver).1 = (f.send now draws failure out resolver).1.map g.sent ∧
      (f.send now draws failure out resolver).2.Mirrors g (f'.send now draws failure out resolver).2 := by
  rw [Forwarder.send, Forwarder.send]
  rcases h.prepare now draws out resolver.endpoint with ⟨e, he, he'⟩ | ⟨sent, f₁, f₁', hok, hok', h₁⟩
  · rw [he, he']
    exact ⟨rfl, h⟩
  · rw [hok, hok']
    dsimp only
    split
    · exact ⟨rfl, h₁.countUnreachable.cancel sent.handle⟩
    · exact ⟨rfl, h₁⟩

/-- Whatever is done, the same is given back, and the gap stays where it is. -/
theorem respond (h : f.Mirrors g f') (a : Action) :
    (f'.respond (g.action a)).1 = g.reply (f.respond a).1 ∧ (f.respond a).2.Mirrors g (f'.respond (g.action a)).2 := by
  cases a with
  | send now draws failure out resolver =>
    obtain ⟨hresult, hnext⟩ := h.send now draws failure out resolver
    exact ⟨congrArg Reply.sent hresult, hnext⟩
  | meet event =>
    cases event with
    | datagram octets source =>
      obtain ⟨houtcome, hnext⟩ := h.receive octets source
      exact ⟨congrArg Reply.judged houtcome, hnext⟩
    | connectionReply handle octets =>
      obtain ⟨houtcome, hnext⟩ := h.receive octets handle.server
      exact ⟨congrArg Reply.judged houtcome, hnext⟩
    | connectionFailed handle failure => exact ⟨rfl, h.connectionFailed handle failure⟩
    | sweep now =>
      obtain ⟨hcount, hnext⟩ := h.sweep now
      exact ⟨congrArg Reply.swept hcount, hnext⟩
  | cancel handle => exact ⟨rfl, h.cancel handle⟩
  | wait handle =>
    obtain ⟨hresult, hnext⟩ := h.wait handle
    exact ⟨congrArg Reply.waited hresult, hnext⟩

/-- Whatever is done one after another, the same is given back, and the gap stays where it is. -/
theorem run (h : f.Mirrors g f') (actions : List Action) :
    (transcript Forwarder.respond f' (actions.map g.action)).1 = (transcript Forwarder.respond f actions).1.map g.reply ∧
      (f.run actions).Mirrors g (f'.run (actions.map g.action)) := by
  rw [← transcript_respond_snd, ← transcript_respond_snd]
  induction actions generalizing f f' with
  | nil => exact ⟨rfl, h⟩
  | cons a actions ih =>
    obtain ⟨hreply, hnext⟩ := h.respond a
    obtain ⟨hreplies, hlast⟩ := ih hnext
    rw [List.map_cons, transcript_cons, transcript_cons, List.map_cons, hreply, hreplies]
    exact ⟨rfl, hlast⟩

end Mirrors

end Forwarder

end DnsRelay
