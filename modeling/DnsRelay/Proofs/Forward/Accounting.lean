import DnsRelay.Proofs.Forward.Delivery
import DnsRelay.Proofs.Forward.Fates

/-!
# Every query is accounted for

The main result, `fully_accounted`, is about every run of a forwarder from its start: how the queries that were registered, the
pending ones, the counters and the queries that were given up add up. Besides the ledger of fates it takes two facts about runs:
no action changes how many queries the table has room for, and what is pending was sent and not yet given up.
-/

namespace DnsRelay

namespace Forwarder

/-! ## Room -/

section Room

variable {f : Forwarder}

/-- Giving up a handle leaves the room of the table as it is. -/
theorem capacity_cancel (f : Forwarder) (handle : Handle) : (f.cancel handle).table.capacity = f.table.capacity := by
  unfold cancel
  split
  · rename_i hclear
    exact PendingTable.capacity_of_clear hclear
  · rfl

/-- So does taking in a message. -/
theorem capacity_receive (f : Forwarder) (octets : Octets) (source : Endpoint) :
    (f.receive octets source).2.table.capacity = f.table.capacity := by
  unfold receive
  dsimp only
  split
  · rfl
  · split
    · rfl
    · split
      · rfl
      · split
        · rfl
        · rename_i hclear
          exact PendingTable.capacity_of_clear hclear

/-- So does preparing a query. -/
theorem capacity_prepare {f f' : Forwarder} {now : Nat} {draws : Draws} {out : Outbound} {server : Endpoint} {sent : Sent}
    (h : f.prepare now draws out server = .ok (sent, f')) : f'.table.capacity = f.table.capacity := by
  unfold prepare at h
  simp only [bind, Except.bind, pure, Except.pure] at h
  split at h
  · cases h
  · rename_i found hfresh
    obtain ⟨token, id, table⟩ := found
    obtain ⟨k, -, -, -, hregister⟩ := registerFresh_ok hfresh
    cases h
    exact PendingTable.capacity_of_register hregister

/-- So does sending one. -/
theorem capacity_send (f : Forwarder) (now : Nat) (draws : Draws) (failure : Option LinkFailure) (out : Outbound)
    (resolver : Resolver) : (f.send now draws failure out resolver).2.table.capacity = f.table.capacity := by
  unfold send
  split
  · rfl
  · rename_i sent f₁ hprepare
    have hcapacity := capacity_prepare hprepare
    split
    · exact (capacity_cancel _ _).trans hcapacity
    · exact hcapacity

/-- So does the failure of a connection. -/
theorem capacity_connectionFailed (f : Forwarder) (handle : Handle) (failure : LinkFailure) :
    (f.connectionFailed handle failure).table.capacity = f.table.capacity := by
  unfold connectionFailed
  split
  · rename_i hclear
    exact PendingTable.capacity_of_clear hclear
  · rfl

/-- So does waiting for a handle. -/
theorem capacity_wait (f : Forwarder) (handle : Handle) : (f.wait handle).2.table.capacity = f.table.capacity := by
  unfold wait
  split
  · exact capacity_cancel f handle
  · unfold expire
    dsimp only
    split
    · rename_i hclear
      exact PendingTable.capacity_of_clear hclear
    · rfl

/-- No action changes how many queries can be pending. -/
theorem Coherent.capacity_act (h : f.Coherent) (a : Action) : (f.act a).table.capacity = f.table.capacity := by
  cases a with
  | send now draws failure out resolver => exact capacity_send f now draws failure out resolver
  | meet event =>
    cases event with
    | datagram octets source => exact capacity_receive f octets source
    | connectionReply handle octets => exact capacity_receive f octets handle.server
    | connectionFailed handle failure => exact capacity_connectionFailed f handle failure
    | sweep now =>
      obtain ⟨table, he, -, hcapacity, -⟩ := h.table.purge now f.config.timeout
      simp only [act, meet, sweep, he]
      exact hcapacity
  | cancel handle => exact capacity_cancel f handle
  | wait handle => exact capacity_wait f handle

/-- From the start of a run as many queries can be pending as its settings say. -/
theorem capacity_after (config : ForwardConfig) (validator : Validator) (actions : List Action) (k : Nat) :
    ((start config validator).after actions k).Coherent ∧
      ((start config validator).after actions k).table.capacity = config.maxPending := by
  have hstep : ∀ (g : Forwarder) a, g.Coherent → g.table.capacity = config.maxPending →
      (g.act a).table.capacity = config.maxPending := fun g a hg hcapacity => (hg.capacity_act a).trans hcapacity
  have hc : ((start config validator).after actions 0).Coherent := coherent_start config validator
  exact after_induction hstep (Nat.zero_le k) hc rfl

/-- From the start of a run no more queries are pending than its settings allow. -/
theorem length_live_le (config : ForwardConfig) (validator : Validator) (actions : List Action) (k : Nat) :
    (((start config validator).after actions k).live).length ≤ config.maxPending := by
  obtain ⟨hc, hcapacity⟩ := capacity_after config validator actions k
  exact hcapacity ▸ hc.table.bounded

end Room

/-! ## Handles that are done with -/

section Done

variable {f : Forwarder} {actions : List Action}

/-- An action that gives a handle up, or waits for what comes of it. -/
def Action.Finishes (a : Action) (h : Handle) : Prop :=
  a = .cancel h ∨ a = .wait h

/-- Ending the query of a token, if there is one, leaves none of this token pending. -/
theorem not_live_of_clear {f' : Forwarder} {token : Token} {contents : Mailbox}
    (hends : ∀ r ∈ f.live, token = r.token → f.Ends (·.named r.token) contents f')
    (heq : (∀ r ∈ f.live, r.token ≠ token) → f' = f) : ∀ r ∈ f'.live, r.token ≠ token := by
  by_cases ht : ∃ r ∈ f.live, token = r.token
  · obtain ⟨x, hx, ht⟩ := ht
    intro r hr
    rw [(hends x hx ht).live, List.mem_filter] at hr
    simpa [Registration.named, ht] using hr.2
  · have hnone : ∀ r ∈ f.live, r.token ≠ token := fun r hr he => ht ⟨r, hr, he.symm⟩
    rw [heq hnone]
    exact hnone

/-- Giving up a handle, at once or after waiting for it, leaves no query of it pending. -/
theorem Coherent.not_live_of_finishes (h : f.Coherent) {a : Action} {handle : Handle} (ha : a.Finishes handle) :
    ∀ r ∈ (f.act a).live, r.token ≠ handle.token := by
  have hcancel : ∀ r ∈ (f.cancel handle).live, r.token ≠ handle.token :=
    not_live_of_clear (fun r hr ht => h.cancel_ends hr ht) h.cancel_eq
  rcases ha with rfl | rfl
  · exact hcancel
  · rw [act, wait]
    split
    · exact hcancel
    · exact not_live_of_clear (fun r hr ht => h.expire_ends hr ht) h.expire_eq

/-- An action that registers no query adds no pending one. -/
theorem Coherent.live_of_not_registers (h : f.Coherent) {a : Action} (ha : a.registers f = false) {r : Registration Nat}
    (hr : r ∈ (f.act a).live) : r ∈ f.live := by
  obtain ⟨f₁, ho, -, gone, contents, e, -⟩ := h.opens_act a
  rw [ha] at ho
  rw [e.live, show f₁ = f from ho] at hr
  exact (List.mem_filter.1 hr).1

/-- A pending query that was not pending before an action was sent by it. -/
theorem Coherent.sent_of_new (h : f.Coherent) {a : Action} {r : Registration Nat} (hr : r ∈ (f.act a).live)
    (hn : r ∉ f.live) :
    ∃ now draws failure out resolver sent, a = .send now draws failure out resolver ∧
      (f.send now draws failure out resolver).1 = .ok sent ∧ sent.handle.token = r.token := by
  cases a with
  | send now draws failure out resolver =>
    refine ⟨now, draws, failure, out, resolver, ?_⟩
    rw [act] at hr
    rcases h.send_cases now draws failure out resolver with
      ⟨e, he⟩ | ⟨sent, f', he, hs⟩ | ⟨e, f₁, f', he, sent, hs, hends⟩
    · rw [he] at hr
      exact absurd hr hn
    · rw [he] at hr ⊢
      rw [hs.adds.live, List.mem_append, List.mem_singleton] at hr
      rcases hr with hr | rfl
      · exact absurd hr hn
      · exact ⟨sent, rfl, rfl, rfl⟩
    · rw [he, hends.live, List.mem_filter] at hr
      obtain ⟨hr, hnamed⟩ := hr
      have hlive : f₁.countUnreachable.live = f.live ++ [_] := hs.adds.live
      rw [hlive, List.mem_append, List.mem_singleton] at hr
      rcases hr with hr | rfl
      · exact absurd hr hn
      · simp [Registration.named] at hnamed
  | meet => exact absurd (h.live_of_not_registers rfl hr) hn
  | cancel => exact absurd (h.live_of_not_registers rfl hr) hn
  | wait => exact absurd (h.live_of_not_registers rfl hr) hn

/-- What is pending in a run that started with nothing pending was sent in the run. -/
theorem Coherent.sent_of_live (h : f.Coherent) (hf : f.live = []) {k : Nat} {r : Registration Nat}
    (hr : r ∈ (f.after actions k).live) :
    ∃ j < k, ∃ now draws out server sent, f.SentAt actions j now draws out server sent ∧ sent.handle.token = r.token := by
  induction k with
  | zero =>
    have hnone : r ∈ f.live := hr
    rw [hf] at hnone
    cases hnone
  | succ k ih =>
    by_cases hold : r ∈ (f.after actions k).live
    · obtain ⟨j, hj, hsent⟩ := ih hold
      exact ⟨j, Nat.lt_succ_of_lt hj, hsent⟩
    · cases ha : actions[k]? with
      | none =>
        rw [after_succ_of_none f ha] at hr
        exact absurd hr hold
      | some a =>
        rw [after_succ f ha] at hr
        obtain ⟨now, draws, failure, out, ⟨server, transport⟩, sent, rfl, hok, ht⟩ :=
          (h.after actions k).sent_of_new hr hold
        exact ⟨k, Nat.lt_succ_self k, now, draws, out, server, sent, ⟨failure, transport, ha, hok⟩, ht⟩

/-- Once every handle was given up or waited for, nothing is pending any more. -/
theorem Coherent.live_eq_nil (h : f.Coherent) (hf : f.live = [])
    (hdone : ∀ j now draws out server sent, f.SentAt actions j now draws out server sent →
      ∃ k a, j < k ∧ actions[k]? = some a ∧ a.Finishes sent.handle) : (f.run actions).live = [] := by
  rw [← after_length]
  refine List.eq_nil_iff_forall_not_mem.2 fun r hr => ?_
  obtain ⟨j, hj, now, draws, out, server, sent, hs, ht⟩ := h.sent_of_live hf hr
  obtain ⟨k, a, hjk, ha, hfinishes⟩ := hdone j now draws out server sent hs
  have e := (hs.sends h).adds
  have hold : r.token.serial < (f.after actions (k + 1)).table.nextSerial := by
    have hserial : sent.handle.token.serial = (f.after actions j).table.nextSerial := e.serial
    have hnext := e.nextSerial
    have hle := h.nextSerial_le actions (show j + 1 ≤ k + 1 by omega)
    rw [ht] at hserial
    omega
  have hlt : k < actions.length := (List.getElem?_eq_some_iff.1 ha).1
  have hr' := h.mem_live_of_old hlt hr hold
  rw [after_succ f ha] at hr'
  exact (h.after actions k).not_live_of_finishes hfinishes r hr' ht.symm

end Done

/-! ## The main result -/

/-- Every query is accounted for. The ledger has one entry for each query registered, open while it is pending and decided by
the action that ends it, or at once if the query could not be sent; the counters count the entries by their fate. No more
queries are pending than allowed, and none once every handle was given up or waited for. -/
theorem fully_accounted (config : ForwardConfig) (validator : Validator) (actions : List Action) :
    let f := start config validator
    let g := f.run actions
    let fates := f.fates actions actions.length
    fates.length = (f.registering actions actions.length).length ∧
    (g.pending = fates.count .pending ∧ g.stats.delivered = fates.count .delivered ∧
      g.stats.timedOut = fates.count .timedOut ∧ g.stats.unreachable = fates.count .unreachable ∧
      fates.length =
        g.pending + g.stats.delivered + g.stats.timedOut + g.stats.unreachable + fates.count .cancelled) ∧
    ((∀ j now draws out server sent, f.SentAt actions j now draws out server sent →
        sent.handle.mailbox = (f.registering actions j).length ∧
        (g.query? sent.handle ≠ none → fates[sent.handle.mailbox]? = some .pending) ∧
        ∀ i a, actions[i]? = some a → (f.after actions i).query? sent.handle ≠ none →
          (f.after actions (i + 1)).query? sent.handle = none →
          fates[sent.handle.mailbox]? = some (a.fate (f.after actions i))) ∧
      ∀ j now draws failure out resolver, actions[j]? = some (.send now draws failure out resolver) →
        j ∈ f.registering actions actions.length →
        (∀ sent, ((f.after actions j).send now draws failure out resolver).1 ≠ .ok sent) →
        fates[(f.registering actions j).length]? = some .unreachable) ∧
    g.pending ≤ config.maxPending ∧
    ((∀ j now draws out server sent, f.SentAt actions j now draws out server sent →
      ∃ k a, j < k ∧ actions[k]? = some a ∧ a.Finishes sent.handle) → g.pending = 0) := by
  intro f g fates
  have h : f.Coherent := coherent_start config validator
  have hf : f.Accounts [] := accounts_start config validator
  have hg : g.Coherent := h.run actions
  have haccounts : g.Accounts fates := by
    have := h.accounts hf actions actions.length
    rwa [after_length] at this
  have hpending : g.pending = g.live.length := hg.table.size
  have hopen : g.pending = fates.count .pending := hpending.trans (hg.count_pending haccounts.pending_iff).symm
  refine ⟨length_fates f actions _, ⟨hopen, haccounts.delivered, haccounts.timedOut, haccounts.unreachable, ?_⟩,
    ⟨?_, ?_⟩, ?_, ?_⟩
  · rw [hopen, haccounts.delivered, haccounts.timedOut, haccounts.unreachable]
    exact Fates.length_eq_counts fates
  · intro j now draws out server sent hs
    have e := (hs.sends h).adds
    have hquery : ∀ k, (f.after actions k).query? sent.handle = _ := e.query?_eq h rfl
    refine ⟨?_, ?_, ?_⟩
    · rw [← length_fates, (h.accounts hf actions j).length]
      exact e.payload
    · intro hq
      have hlive := hquery actions.length
      rw [after_length] at hlive
      rw [hlive] at hq
      have hr := (ite_ne_right_iff.1 hq).1
      exact (haccounts.pending_iff _).2 ((hg.waiting _).2 ⟨_, hr, rfl⟩)
    · intro i a ha hi hi'
      rw [hquery] at hi hi'
      have hlt : i < actions.length := (List.getElem?_eq_some_iff.1 ha).1
      have hended := h.fates_of_ended hf ha (by simpa using hi) (by simpa using hi')
      exact f.fates_kept actions hlt hended (a.fate_ne_pending _)
  · intro j now draws failure out resolver ha hj hfailed
    rw [registering, List.mem_filter, ha] at hj
    have hlt : j < actions.length := (List.getElem?_eq_some_iff.1 ha).1
    have hentry := (h.accounts hf actions j).enter_of_unsent (h.after actions j) hj.2 hfailed
    rw [← fates_succ f ha, length_fates] at hentry
    exact f.fates_kept actions hlt hentry (by decide)
  · have hle := length_live_le config validator actions actions.length
    rw [after_length] at hle
    exact hpending ▸ hle
  · intro hdone
    rw [hpending, h.live_eq_nil (live_start config validator) hdone]
    rfl

end Forwarder

end DnsRelay
