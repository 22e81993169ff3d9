import DnsRelay.Proofs.Forward.ArrivalOrder

/-!
# What becomes of every query

The ledger of a run has an entry for each query that the run registered, in the order of registration, which is also the order
of the mailboxes. An entry is open while the query is pending, and the action that ends the query writes its fate into it, once
and for all. `Credits` says what one action does to the counters and to the pending queries; that the ledger and the counters
agree after every run (`Coherent.accounts`) follows by induction.
-/

namespace DnsRelay

/-- What has become of a query that was registered. -/
inductive Fate where
  | pending
  | delivered
  | timedOut
  | unreachable
  | cancelled
  deriving DecidableEq, Repr

/-- The counters `s'` are the counters `s` with `n` more queries of a fate, as far as this fate is counted. -/
structure Stats.Gains (s : Stats) (fate : Fate) (n : Nat) (s' : Stats) : Prop where
  delivered : s'.delivered = s.delivered + if fate = .delivered then n else 0
  timedOut : s'.timedOut = s.timedOut + if fate = .timedOut then n else 0
  unreachable : s'.unreachable = s.unreachable + if fate = .unreachable then n else 0

/-- Without another query the counters of fates stay. -/
theorem Stats.gains_zero {s s' : Stats} (hd : s'.delivered = s.delivered) (ht : s'.timedOut = s.timedOut)
    (hu : s'.unreachable = s.unreachable) (fate : Fate) : s.Gains fate 0 s' :=
  ⟨by simp [hd], by simp [ht], by simp [hu]⟩

/-! ## Fates -/

namespace Fates

/-- Writes a fate into the open entries of those queries that wait no longer. -/
def settle (waits : Nat → Bool) (fate : Fate) (fates : List Fate) : List Fate :=
  fates.mapIdx fun m old => if old = .pending ∧ waits m = false then fate else old

variable {waits : Nat → Bool} {fate : Fate}

@[simp] theorem length_settle (fates : List Fate) : (settle waits fate fates).length = fates.length :=
  List.length_mapIdx

theorem getElem?_settle (fates : List Fate) (m : Nat) :
    (settle waits fate fates)[m]? = fates[m]?.map fun old => if old = .pending ∧ waits m = false then fate else old :=
  List.getElem?_mapIdx

/-- An entry stays open iff its query goes on waiting. -/
theorem settle_pending_iff (hfate : fate ≠ .pending) (fates : List Fate) (m : Nat) :
    (settle waits fate fates)[m]? = some .pending ↔ fates[m]? = some .pending ∧ waits m = true := by
  rw [getElem?_settle]
  cases fates[m]? with
  | none => simp
  | some old =>
    by_cases hold : old = .pending
    · cases hw : waits m with
      | true => simp [hold]
      | false => simpa [hold] using hfate
    · simp [hold]

/-- An entry that is not open is not written again. -/
theorem settle_kept {fates : List Fate} {m : Nat} {old : Fate} (h : fates[m]? = some old) (hold : old ≠ .pending) :
    (settle waits fate fates)[m]? = some old := by
  rw [getElem?_settle, h]
  simp [hold]

theorem settle_cons (old : Fate) (fates : List Fate) :
    settle waits fate (old :: fates) =
      (if old = .pending ∧ waits 0 = false then fate else old) :: settle (fun m => waits (m + 1)) fate fates :=
  List.mapIdx_cons

/-- The entries that are closed are counted under the fate that is written into them. -/
theorem count_settle_self (hfate : fate ≠ .pending) (fates : List Fate) :
    (settle waits fate fates).count fate + (settle waits fate fates).count .pending =
      fates.count fate + fates.count .pending := by
  induction fates generalizing waits with
  | nil => rfl
  | cons old fates ih =>
    have hrest := @ih fun m => waits (m + 1)
    rw [settle_cons]
    split
    · rename_i hold
      rw [hold.1, List.count_cons_self, List.count_cons_of_ne hfate, List.count_cons_of_ne hfate.symm,
        List.count_cons_self]
      omega
    · rw [List.count_cons, List.count_cons, List.count_cons, List.count_cons]
      omega

/-- No other count changes. -/
theorem count_settle_of_ne {x : Fate} (hx : x ≠ .pending) (hfate : fate ≠ x) (fates : List Fate) :
    (settle waits fate fates).count x = fates.count x := by
  induction fates generalizing waits with
  | nil => rfl
  | cons old fates ih =>
    rw [settle_cons]
    split
    · rename_i hold
      rw [hold.1, List.count_cons_of_ne hfate, List.count_cons_of_ne hx.symm, ih]
    · rw [List.count_cons, List.count_cons, ih]

/-- Every entry has one fate. -/
theorem length_eq_counts (fates : List Fate) :
    fates.length = fates.count .pending + fates.count .delivered + fates.count .timedOut + fates.count .unreachable +
      fates.count .cancelled := by
  induction fates with
  | nil => rfl
  | cons fate fates ih => cases fate <;> simp [ih] <;> omega

/-- As often as something is in a list, so many places of the list hold it. -/
theorem length_places (fates : List Fate) (x : Fate) :
    ((List.range fates.length).filter fun m => fates[m]? = some x).length = fates.count x := by
  induction fates with
  | nil => rfl
  | cons fate fates ih =>
    rw [List.length_cons, List.range_succ_eq_map, List.filter_cons, List.filter_map, List.count_cons, ← ih]
    have hshift : ((fun m => decide ((fate :: fates)[m]? = some x)) ∘ Nat.succ) = fun m => decide (fates[m]? = some x) := by
      funext m
      simp
    rw [hshift]
    by_cases hx : fate = x
    · simp [hx]
    · simp [hx]

/-- The places of a list that hold something, listed in any order without repetition, are as many as there are of it. -/
theorem count_eq_length {fates : List Fate} {x : Fate} {places : List Nat} (hn : places.Nodup)
    (h : ∀ m, fates[m]? = some x ↔ m ∈ places) : fates.count x = places.length := by
  rw [← length_places]
  have hnodup : ((List.range fates.length).filter fun m => fates[m]? = some x).Nodup := List.nodup_range.filter _
  refine ((List.perm_ext_iff_of_nodup hnodup hn).2 fun m => ?_).length_eq
  rw [List.mem_filter, List.mem_range, decide_eq_true_eq, h m]
  constructor
  · exact And.right
  · intro hm
    exact ⟨(List.getElem?_eq_some_iff.1 ((h m).2 hm)).1, hm⟩

end Fates

namespace Forwarder

/-! ## The ledger of a run -/

/-- Whether a mailbox still waits. -/
def waits (f : Forwarder) (m : Nat) : Bool :=
  f.mailboxes[m]? = some .waiting

@[simp] theorem waits_eq_true (f : Forwarder) (m : Nat) : f.waits m = true ↔ f.mailboxes[m]? = some .waiting :=
  decide_eq_true_iff

/-- Whether an action registers a query. -/
def Action.registers (f : Forwarder) : Action → Bool
  | .send now draws _ out resolver => (f.prepare now draws out resolver.endpoint).isOk
  | _ => false

/-- What becomes of the queries that an action ends. Sending ends the query that it registered itself, if the message could
not be sent. Waiting for a handle that something has come of gives the handle up, and so does cancelling. -/
def Action.fate (f : Forwarder) : Action → Fate
  | .send .. => .unreachable
  | .meet (.datagram ..) => .delivered
  | .meet (.connectionReply ..) => .delivered
  | .meet (.connectionFailed ..) => .unreachable
  | .meet (.sweep _) => .timedOut
  | .cancel _ => .cancelled
  | .wait h => if (f.result? h).isSome then .cancelled else .timedOut

/-- The ledger after an action: a query that is registered gets an open entry, and the entries of queries that wait no longer
get their fate. -/
def enter (f : Forwarder) (a : Action) (fates : List Fate) : List Fate :=
  Fates.settle (f.act a).waits (a.fate f) (if a.registers f then fates ++ [.pending] else fates)

/-- The ledger after the first `k` of several actions. -/
def fates (f : Forwarder) (actions : List Action) : Nat → List Fate
  | 0 => []
  | k + 1 =>
    match actions[k]? with
    | some a => (f.after actions k).enter a (f.fates actions k)
    | none => f.fates actions k

/-- The numbers of those among the first `k` of several actions that register a query. -/
def registering (f : Forwarder) (actions : List Action) (k : Nat) : List Nat :=
  (List.range k).filter fun i => actions[i]?.any (·.registers (f.after actions i))

/-- No action leaves the entries open that it closes. -/
theorem Action.fate_ne_pending (f : Forwarder) (a : Action) : a.fate f ≠ .pending := by
  cases a with
  | send => simp [fate]
  | meet event => cases event <;> simp [fate]
  | cancel => simp [fate]
  | wait handle =>
    rw [fate]
    split <;> nofun

/-! ## What one action does to the counters -/

/-- `f'` is `f` with some queries ended, each of which is counted under the fate, if it is counted. -/
def Credits (f : Forwarder) (fate : Fate) (f' : Forwarder) : Prop :=
  ∃ gone contents, f.Ends gone contents f' ∧ f.stats.Gains fate (f.live.filter gone).length f'.stats

/-- `f'` is `f` with one more query if one was registered, and otherwise it is `f`. -/
def Opens (f : Forwarder) (registered : Bool) (f' : Forwarder) : Prop :=
  if registered then (∃ r, f.Adds r f') ∧ f'.stats = f.stats else f' = f

section Actions

variable {f f' : Forwarder} {fate : Fate}

/-- A forwarder in which only other counters changed has no query ended. -/
theorem Coherent.credits_none (h : f.Coherent) {stats : Stats} (hd : stats.delivered = f.stats.delivered)
    (ht : stats.timedOut = f.stats.timedOut) (hu : stats.unreachable = f.stats.unreachable) (fate : Fate) :
    f.Credits fate { f with stats } := by
  have hnone : (f.live.filter fun _ => false) = [] := by simp
  refine ⟨fun _ => false, .closed, h.ends_none nofun (fun _ _ => rfl) rfl rfl rfl rfl, ?_⟩
  rw [hnone]
  exact Stats.gains_zero hd ht hu fate

/-- A token of a pending query names one query. -/
theorem Coherent.length_named (h : f.Coherent) {r : Registration Nat} (hr : r ∈ f.live) :
    (f.live.filter (·.named r.token)).length = 1 := by
  have hperm := (h.table.cons_filter_perm hr).length_eq
  have hsplit := List.length_eq_length_filter_add (l := f.live) fun x => x.named r.token
  have hnot : (f.live.filter fun x => !x.named r.token) = f.live.filter (·.token ≠ r.token) :=
    List.filter_congr fun x _ => by simp [Registration.named]
  rw [List.length_cons] at hperm
  rw [hnot] at hsplit
  omega

/-- Ending the query of a token, or changing nothing if there is none, is counted once or not at all. -/
theorem Coherent.credits_of_clear (h : f.Coherent) (token : Token) {contents : Mailbox}
    (hends : ∀ r ∈ f.live, token = r.token → f.Ends (·.named r.token) contents f' ∧ f.stats.Gains fate 1 f'.stats)
    (heq : (∀ r ∈ f.live, r.token ≠ token) → f' = f) : f.Credits fate f' := by
  by_cases ht : ∃ r ∈ f.live, token = r.token
  · obtain ⟨r, hr, ht⟩ := ht
    obtain ⟨he, hgains⟩ := hends r hr ht
    exact ⟨_, contents, he, by rw [h.length_named hr]; exact hgains⟩
  · rw [heq fun r hr he => ht ⟨r, hr, he.symm⟩]
    exact h.credits_none rfl rfl rfl fate

/-- Giving up a handle changes no counter. -/
theorem stats_cancel (f : Forwarder) (handle : Handle) : (f.cancel handle).stats = f.stats := by
  unfold cancel
  split <;> rfl

/-- A query that is given up is counted nowhere. -/
theorem Coherent.credits_cancel (h : f.Coherent) (handle : Handle) : f.Credits .cancelled (f.cancel handle) := by
  refine h.credits_of_clear handle.token (fun r hr ht => ⟨h.cancel_ends hr ht, ?_⟩) h.cancel_eq
  rw [stats_cancel]
  exact ⟨rfl, rfl, rfl⟩

/-- A query whose connection fails is counted as one whose server was not reached. -/
theorem Coherent.credits_connectionFailed (h : f.Coherent) (handle : Handle) (failure : LinkFailure) :
    f.Credits .unreachable (f.connectionFailed handle failure) := by
  refine h.credits_of_clear handle.token (fun r hr ht => ⟨h.connectionFailed_ends hr ht failure, ?_⟩)
    fun ht => h.connectionFailed_eq ht failure
  obtain ⟨table, he, -⟩ := h.table.clear_mem hr
  rw [connectionFailed, ht, he]
  exact ⟨rfl, rfl, rfl⟩

/-- A query that is given up after twice the timeout is counted as one that timed out. -/
theorem Coherent.credits_expire (h : f.Coherent) (handle : Handle) : f.Credits .timedOut (f.expire handle) := by
  refine h.credits_of_clear handle.token (fun r hr ht => ⟨h.expire_ends hr ht, ?_⟩) h.expire_eq
  obtain ⟨table, he, -⟩ := h.table.clear_mem hr
  rw [expire, ht, he]
  exact ⟨rfl, rfl, rfl⟩

/-- The queries that a sweep ends are counted as ones that timed out. -/
theorem Coherent.credits_sweep (h : f.Coherent) (now : Nat) : f.Credits .timedOut (f.sweep now).2 := by
  refine ⟨_, .closed, h.sweep_ends now, ?_⟩
  obtain ⟨table, he, -⟩ := h.table.purge now f.config.timeout
  have hperm := (h.table.registrations_perm.filter (·.query.expired now f.config.timeout)).length_eq
  rw [← hperm]
  simp only [sweep, he, List.length_map]
  exact ⟨rfl, rfl, rfl⟩

/-- A query whose response is delivered is counted, and a message that is not delivered ends no query. -/
theorem Coherent.credits_receive (h : f.Coherent) (octets : Octets) (source : Endpoint) :
    f.Credits .delivered (f.receive octets source).2 := by
  cases hp : Response.parse? octets source with
  | error e =>
    rw [receive_malformed f hp]
    exact h.credits_none (by rfl) (by rfl) (by rfl) _
  | ok response =>
    rcases h.receive_cases hp with ⟨-, he⟩ | ⟨r, -, -, he⟩ | ⟨reason, r, -, -, -, he⟩ | ⟨r, hr, -, -, -, hstats, hends⟩
    · rw [he]
      exact h.credits_none (by rfl) (by rfl) (by rfl) _
    · rw [he]
      exact h.credits_none (by rfl) (by rfl) (by rfl) _
    · rw [he]
      exact h.credits_none (by rfl) (by rfl) (by rfl) _
    · refine ⟨_, _, hends, ?_⟩
      rw [h.length_named hr, hstats]
      exact ⟨rfl, rfl, rfl⟩

/-- A query that was registered is sent, or it is given up at once because the message could not be sent. -/
theorem send_of_prepare {now : Nat} {draws : Draws} {out : Outbound} {resolver : Resolver} {sent : Sent}
    (hp : f.prepare now draws out resolver.endpoint = .ok (sent, f')) (failure : Option LinkFailure) :
    f.send now draws failure out resolver = (.ok sent, f') ∨
      ∃ e, f.send now draws failure out resolver = (.error (.unreachable e), f'.countUnreachable.cancel sent.handle) := by
  rw [send, hp]
  dsimp only
  split
  · exact Or.inr ⟨_, rfl⟩
  · exact Or.inl rfl

/-- Giving up a query that was just registered ends it. -/
theorem Sends.cancel_ends {now : Nat} {draws : Draws} {out : Outbound} {server : Endpoint} {sent : Sent}
    (hs : f.Sends now draws out server sent f') :
    f'.Ends (·.named sent.handle.token) .closed (f'.countUnreachable.cancel sent.handle) := by
  have hc : f'.countUnreachable.Coherent := hs.adds.coherent.withStats _
  have e : f'.countUnreachable.Ends (·.named sent.handle.token) .closed (f'.countUnreachable.cancel sent.handle) :=
    hc.cancel_ends hs.adds.mem rfl
  exact ⟨e.coherent, e.live, e.config, e.validator, e.nextSerial, e.size, e.ended, e.kept⟩

/-- Sending opens an entry if it registers a query, and closes this one if the message could not be sent. -/
theorem Coherent.opens_send (h : f.Coherent) (now : Nat) (draws : Draws) (failure : Option LinkFailure) (out : Outbound)
    (resolver : Resolver) :
    ∃ f₁, f.Opens (f.prepare now draws out resolver.endpoint).isOk f₁ ∧ f₁.Coherent ∧
      f₁.Credits .unreachable (f.send now draws failure out resolver).2 := by
  cases hp : f.prepare now draws out resolver.endpoint with
  | error e =>
    rw [send, hp]
    exact ⟨f, rfl, h, h.credits_none rfl rfl rfl _⟩
  | ok found =>
    obtain ⟨sent, f₁⟩ := found
    have hs := h.prepare_ok hp
    refine ⟨f₁, ⟨⟨_, hs.adds⟩, hs.stats⟩, hs.adds.coherent, ?_⟩
    rcases send_of_prepare hp failure with he | ⟨e, he⟩
    · rw [he]
      exact hs.adds.coherent.credits_none rfl rfl rfl _
    · rw [he]
      refine ⟨_, .closed, hs.cancel_ends, ?_⟩
      rw [hs.adds.coherent.length_named hs.adds.mem, stats_cancel]
      exact ⟨rfl, rfl, rfl⟩

/-- Every action opens an entry if it registers a query, and then closes those of the queries that it ends. -/
theorem Coherent.opens_act (h : f.Coherent) (a : Action) :
    ∃ f₁, f.Opens (a.registers f) f₁ ∧ f₁.Coherent ∧ f₁.Credits (a.fate f) (f.act a) := by
  cases a with
  | send now draws failure out resolver => exact h.opens_send now draws failure out resolver
  | meet event =>
    refine ⟨f, rfl, h, ?_⟩
    cases event with
    | datagram octets source => exact h.credits_receive octets source
    | connectionReply handle octets => exact h.credits_receive octets handle.server
    | connectionFailed handle failure => exact h.credits_connectionFailed handle failure
    | sweep now => exact h.credits_sweep now
  | cancel handle => exact ⟨f, rfl, h, h.credits_cancel handle⟩
  | wait handle =>
    refine ⟨f, rfl, h, ?_⟩
    cases hresult : f.result? handle with
    | none =>
      have hact : f.act (.wait handle) = f.expire handle := by simp only [act, wait, hresult]
      have hfate : (Action.wait handle).fate f = .timedOut := by simp [Action.fate, hresult]
      rw [hact, hfate]
      exact h.credits_expire handle
    | some result =>
      have hact : f.act (.wait handle) = f.cancel handle := by simp only [act, wait, hresult]
      have hfate : (Action.wait handle).fate f = .cancelled := by simp [Action.fate, hresult]
      rw [hact, hfate]
      exact h.credits_cancel handle

end Actions

/-! ## Ledgers that agree with a forwarder -/

/-- A ledger is that of a forwarder: it has an entry for each mailbox, the open ones are those of the mailboxes that wait, and the
counters are the numbers of entries with their fate. -/
structure Accounts (f : Forwarder) (fates : List Fate) : Prop where
  length : fates.length = f.mailboxes.size
  pending_iff : ∀ m : Nat, fates[m]? = some .pending ↔ f.mailboxes[m]? = some .waiting
  delivered : f.stats.delivered = fates.count .delivered
  timedOut : f.stats.timedOut = fates.count .timedOut
  unreachable : f.stats.unreachable = fates.count .unreachable

section Accounts

variable {f f' : Forwarder} {fates : List Fate} {fate : Fate}

/-- If the open entries are those of the mailboxes that wait, as many are open as queries are pending. -/
theorem Coherent.count_pending (h : f.Coherent)
    (hpending : ∀ m : Nat, fates[m]? = some .pending ↔ f.mailboxes[m]? = some .waiting) :
    fates.count .pending = f.live.length := by
  rw [← List.length_map (·.payload)]
  refine Fates.count_eq_length (List.pairwise_map.2 h.distinct) fun m => ?_
  rw [hpending, h.waiting, List.mem_map]

/-- A query that is registered gets an open entry. -/
theorem Accounts.opens (hf : f.Accounts fates) {registered : Bool} (ho : f.Opens registered f') :
    f'.Accounts (if registered then fates ++ [.pending] else fates) := by
  cases registered with
  | false =>
    rw [show f' = f from ho]
    exact hf
  | true =>
    obtain ⟨⟨r, e⟩, hstats⟩ := ho
    refine ⟨?_, fun m => ?_, ?_, ?_, ?_⟩
    · simp [e.mailboxes, hf.length]
    · rw [if_pos rfl, e.mailboxes, Array.getElem?_push, List.getElem?_append, ← hf.length]
      rcases Nat.lt_trichotomy m fates.length with hlt | rfl | hlt
      · rw [if_pos hlt, if_neg (Nat.ne_of_lt hlt), hf.pending_iff]
      · simp
      · have hle : f.mailboxes.size ≤ m := hf.length ▸ Nat.le_of_lt hlt
        have hne : m - fates.length ≠ 0 := by omega
        simp [Nat.not_lt_of_gt hlt, Nat.ne_of_gt hlt, hne, Array.getElem?_eq_none hle]
    · simp [hstats, hf.delivered]
    · simp [hstats, hf.timedOut]
    · simp [hstats, hf.unreachable]

/-- The fate of queries that an action ends is written into their entries. -/
theorem Accounts.credits (hf : f.Accounts fates) (h : f.Coherent) (hc : f.Credits fate f') (hfate : fate ≠ .pending) :
    f'.Accounts (Fates.settle f'.waits fate fates) := by
  obtain ⟨gone, contents, e, hgains⟩ := hc
  have hpending : ∀ m : Nat, (Fates.settle f'.waits fate fates)[m]? = some .pending ↔ f'.mailboxes[m]? = some .waiting := by
    intro m
    rw [Fates.settle_pending_iff hfate, hf.pending_iff, waits_eq_true]
    refine ⟨And.right, fun hw => ⟨?_, hw⟩⟩
    obtain ⟨r, hr, rfl⟩ := (e.coherent.waiting m).1 hw
    rw [e.live] at hr
    exact (h.waiting _).2 ⟨r, (List.mem_filter.1 hr).1, rfl⟩
  have hopen := h.count_pending hf.pending_iff
  have hstill := e.coherent.count_pending hpending
  have hsplit := List.length_eq_length_filter_add (l := f.live) gone
  rw [← e.live] at hsplit
  have hcount : ∀ x, x ≠ .pending → (Fates.settle f'.waits fate fates).count x =
      fates.count x + if fate = x then (f.live.filter gone).length else 0 := by
    intro x hx
    by_cases hfx : fate = x
    · subst hfx
      have hself : (Fates.settle f'.waits fate fates).count fate + _ = _ := Fates.count_settle_self hfate fates
      rw [if_pos rfl]
      omega
    · rw [if_neg hfx, Fates.count_settle_of_ne hx hfx, Nat.add_zero]
  refine ⟨?_, hpending, ?_, ?_, ?_⟩
  · rw [Fates.length_settle, hf.length, e.size]
  · rw [hgains.delivered, hf.delivered, hcount .delivered nofun]
  · rw [hgains.timedOut, hf.timedOut, hcount .timedOut nofun]
  · rw [hgains.unreachable, hf.unreachable, hcount .unreachable nofun]

/-- Every action keeps the ledger. -/
theorem Accounts.enter (hf : f.Accounts fates) (h : f.Coherent) (a : Action) : (f.act a).Accounts (f.enter a fates) := by
  obtain ⟨f₁, ho, h₁, hc⟩ := h.opens_act a
  exact (hf.opens ho).credits h₁ hc (a.fate_ne_pending f)

end Accounts

/-! ## The ledger of a run -/

section Runs

variable {f : Forwarder} {actions : List Action}

theorem fates_succ (f : Forwarder) {k : Nat} {a : Action} (ha : actions[k]? = some a) :
    f.fates actions (k + 1) = (f.after actions k).enter a (f.fates actions k) := by
  rw [fates, ha]

theorem fates_succ_of_none (f : Forwarder) {k : Nat} (ha : actions[k]? = none) :
    f.fates actions (k + 1) = f.fates actions k := by
  rw [fates, ha]

/-- The ledger of a run is that of the forwarder that the run leads to. -/
theorem Coherent.accounts (h : f.Coherent) (hf : f.Accounts []) (actions : List Action) (k : Nat) :
    (f.after actions k).Accounts (f.fates actions k) := by
  induction k with
  | zero => exact hf
  | succ k ih =>
    cases ha : actions[k]? with
    | none =>
      rw [after_succ_of_none f ha, fates_succ_of_none f ha]
      exact ih
    | some a =>
      rw [after_succ f ha, fates_succ f ha]
      exact ih.enter (h.after actions k) a

/-- Before anything is sent there is nothing to account for. -/
theorem accounts_start (config : ForwardConfig) (validator : Validator) : (start config validator).Accounts [] where
  length := rfl
  pending_iff := by simp [start]
  delivered := rfl
  timedOut := rfl
  unreachable := rfl

/-- Each action that registers a query makes one entry. -/
theorem length_fates (f : Forwarder) (actions : List Action) (k : Nat) :
    (f.fates actions k).length = (f.registering actions k).length := by
  induction k with
  | zero => rfl
  | succ k ih =>
    rw [registering, List.range_succ, List.filter_append, List.length_append, ← registering, ← ih]
    cases ha : actions[k]? with
    | none => simp [fates_succ_of_none f ha, ha]
    | some a =>
      rw [fates_succ f ha, enter, Fates.length_settle]
      cases hr : a.registers (f.after actions k) with
      | false => simp [ha, hr]
      | true => simp [ha, hr]

/-- An entry that is closed stays as it is. -/
theorem fates_kept (f : Forwarder) (actions : List Action) {j k : Nat} (hjk : j ≤ k) {m : Nat} {fate : Fate}
    (hm : (f.fates actions j)[m]? = some fate) (hfate : fate ≠ .pending) : (f.fates actions k)[m]? = some fate := by
  induction hjk with
  | refl => exact hm
  | @step k _ ih =>
    cases ha : actions[k]? with
    | none =>
      rw [fates_succ_of_none f ha]
      exact ih
    | some a =>
      rw [fates_succ f ha]
      refine Fates.settle_kept ?_ hfate
      split
      · rw [List.getElem?_append_left (List.getElem?_eq_some_iff.1 ih).1]
        exact ih
      · exact ih

/-- The entry of a query is closed by the action that ends it. -/
theorem Coherent.fates_of_ended (h : f.Coherent) (hf : f.Accounts []) {i : Nat} {a : Action} (ha : actions[i]? = some a)
    {r : Registration Nat} (hi : r ∈ (f.after actions i).live) (hi' : r ∉ (f.after actions (i + 1)).live) :
    (f.fates actions (i + 1))[r.payload]? = some (a.fate (f.after actions i)) := by
  have hc := h.after actions i
  have hopen := ((h.accounts hf actions i).pending_iff r.payload).2 ((hc.waiting _).2 ⟨r, hi, rfl⟩)
  rw [after_succ f ha] at hi'
  have hw : ((f.after actions i).act a).waits r.payload = false := by
    rw [← Bool.not_eq_true, waits_eq_true]
    exact (hc.step a).not_waiting hc hi hi'
  rw [fates_succ f ha, enter, Fates.getElem?_settle]
  split
  · rw [List.getElem?_append_left (List.getElem?_eq_some_iff.1 hopen).1, hopen, hw]
    rfl
  · rw [hopen, hw]
    rfl

/-- The entry of a query whose message could not be sent is closed at once. -/
theorem Accounts.enter_of_unsent {fates : List Fate} (hf : f.Accounts fates) (h : f.Coherent) {now : Nat} {draws : Draws}
    {failure : Option LinkFailure} {out : Outbound} {resolver : Resolver}
    (hregisters : (Action.send now draws failure out resolver).registers f = true)
    (hfailed : ∀ sent, (f.send now draws failure out resolver).1 ≠ .ok sent) :
    (f.enter (.send now draws failure out resolver) fates)[fates.length]? = some .unreachable := by
  have hclosed : (f.act (.send now draws failure out resolver)).waits fates.length = false := by
    rw [← Bool.not_eq_true, waits_eq_true, act]
    cases hp : f.prepare now draws out resolver.endpoint with
    | error e =>
      rw [Action.registers, hp] at hregisters
      cases hregisters
    | ok found =>
      obtain ⟨sent, f₁⟩ := found
      have hs := h.prepare_ok hp
      rcases send_of_prepare hp failure with he | ⟨e, he⟩
      · exact absurd (congrArg Prod.fst he) (hfailed sent)
      · have hbox := hs.cancel_ends.ended _ hs.adds.mem ((Registration.named_eq_true _ _).2 rfl)
        rw [hs.adds.payload, ← hf.length] at hbox
        rw [he, hbox]
        intro hwaiting
        cases hwaiting
  rw [Forwarder.enter, hregisters, if_pos rfl, Fates.getElem?_settle, List.getElem?_concat_length, hclosed]
  rfl

end Runs

end Forwarder

end DnsRelay
