import DnsRelay.Proofs.Pending.Refinement
import DnsRelay.Proofs.Transcript

/-!
# What calls do to a table, one after another

A call adds one registration, under the next number (`Adds`), or it ends some and hands them out (`Ends`). In a history, which is
a table at one moment after another, no number is given out twice, what is pending was added at some moment, and it ends at one
moment at most.
-/

namespace DnsRelay

/-- What a table of pending queries can be asked. -/
inductive TableCall (P : Type) where
  | register (query : PendingQuery) (payload : P)
  | lookup (id : UInt16) (source : Endpoint)
  | clear (token : Token)
  | purge (now maxAge : Nat)
  | size
  | isEmpty
  deriving DecidableEq, Repr

/-- What a table of pending queries answers. -/
inductive TableAnswer (P : Type) where
  | registered (token : Token)
  | refused (error : RegisterError)
  | found (claimed : Option (Token × PendingQuery))
  | cleared (gone : Option (PendingQuery × P))
  | purged (gone : List (PendingQuery × P))
  | size (n : Nat)
  | isEmpty (b : Bool)
  deriving DecidableEq, Repr

/-- A table answers a call. -/
def PendingTable.answer {P : Type} (t : PendingTable P) : TableCall P → TableAnswer P × PendingTable P
  | .register query payload =>
    match t.register query payload with
    | .ok (token, t) => (.registered token, t)
    | .error e => (.refused e, t)
  | .lookup id source => (.found (t.lookup id source), t)
  | .clear token =>
    match t.clear token with
    | some (gone, t) => (.cleared (some gone), t)
    | none => (.cleared none, t)
  | .purge now maxAge => (.purged (t.purge now maxAge).1, (t.purge now maxAge).2)
  | .size => (.size t.size, t)
  | .isEmpty => (.isEmpty t.isEmpty, t)

/-- What is handed out of a registration that ends. -/
def Registration.contents {P : Type} (r : Registration P) : PendingQuery × P :=
  (r.query, r.payload)

/-- What an answer hands out to the one who asked. -/
def TableAnswer.handedOut {P : Type} : TableAnswer P → List (PendingQuery × P)
  | .cleared (some gone) => [gone]
  | .purged gone => gone
  | _ => []

namespace PendingTable

variable {P : Type}

/-- `t'` is `t` with one more registration, under the next number. -/
structure Adds (t : PendingTable P) (r : Registration P) (t' : PendingTable P) : Prop where
  represents : t'.Represents t'.live
  live : t'.live = t.live ++ [r]
  serial : r.token.serial = t.nextSerial
  nextSerial : t'.nextSerial = t.nextSerial + 1

/-- `t'` is `t` without the registrations in `gone`. -/
structure Ends (t : PendingTable P) (gone : List (Registration P)) (t' : PendingTable P) : Prop where
  represents : t'.Represents t'.live
  nodup : gone.Nodup
  mem_iff : ∀ r, r ∈ gone ↔ r ∈ t.live ∧ r ∉ t'.live
  kept : ∀ r ∈ t'.live, r ∈ t.live
  nextSerial : t'.nextSerial = t.nextSerial

/-- What can be said of a table and a later one: numbers that were given out are not given out again, so that a registration
with such a number was there before. -/
structure Step (t t' : PendingTable P) : Prop where
  represents : t'.Represents t'.live
  nextSerial : t.nextSerial ≤ t'.nextSerial
  fresh : ∀ r ∈ t'.live, r ∈ t.live ∨ t.nextSerial ≤ r.token.serial

variable {t t' t'' : PendingTable P}

/-- A registration that was added is there. -/
theorem Adds.mem {r : Registration P} (e : t.Adds r t') : r ∈ t'.live := by
  rw [e.live]
  exact List.mem_append_right _ (List.mem_singleton_self r)

/-- A registration that is added was not there. -/
theorem Adds.not_mem {r : Registration P} (ht : t.Represents t.live) (e : t.Adds r t') : r ∉ t.live :=
  fun hr => absurd e.serial (Nat.ne_of_lt (ht.fresh r hr))

/-- Adding a registration is a step. -/
theorem Adds.step {r : Registration P} (e : t.Adds r t') : t.Step t' where
  represents := e.represents
  nextSerial := by
    rw [e.nextSerial]
    exact Nat.le_succ _
  fresh := by
    intro x hx
    rw [e.live, List.mem_append, List.mem_singleton] at hx
    rcases hx with hx | rfl
    · exact Or.inl hx
    · exact Or.inr (Nat.le_of_eq e.serial.symm)

/-- Ending registrations is a step. -/
theorem Ends.step {gone : List (Registration P)} (e : t.Ends gone t') : t.Step t' where
  represents := e.represents
  nextSerial := Nat.le_of_eq e.nextSerial.symm
  fresh := fun r hr => Or.inl (e.kept r hr)

/-- A step and a step are a step. -/
theorem Step.trans (h : t.Step t') (h' : t'.Step t'') : t.Step t'' where
  represents := h'.represents
  nextSerial := Nat.le_trans h.nextSerial h'.nextSerial
  fresh := by
    intro r hr
    rcases h'.fresh r hr with hr | hle
    · exact h.fresh r hr
    · exact Or.inr (Nat.le_trans h.nextSerial hle)

/-- A registration whose number had been given out before was there before. -/
theorem Step.mem_of_old (h : t.Step t') {r : Registration P} (hr : r ∈ t'.live)
    (hold : r.token.serial < t.nextSerial) : r ∈ t.live := by
  rcases h.fresh r hr with hr | hle
  · exact hr
  · exact absurd hold (Nat.not_lt.2 hle)

/-- What has the token of a registration later on is this registration. -/
theorem Step.eq_of_token (ht : t.Represents t.live) (h : t.Step t') {r x : Registration P}
    (hr : r ∈ t.live) (hx : x ∈ t'.live) (he : x.token = r.token) : x = r :=
  ht.eq_of_token (h.mem_of_old hx (he ▸ ht.fresh r hr)) hr he

namespace Represents

/-- Standing still is a step. -/
theorem step_refl (h : t.Represents t.live) : t.Step t :=
  ⟨h, Nat.le_refl _, fun _ hr => Or.inl hr⟩

/-- Taking nothing out ends nothing. -/
theorem ends_nil (h : t.Represents t.live) : t.Ends [] t :=
  ⟨h, List.nodup_nil, by simp, fun _ hr => hr, rfl⟩

/-- A table whose list is a part of the former one, and which gives out the same number next, has ended the other part. -/
theorem ends_filter (h : t.Represents t.live) {p : Registration P → Bool}
    (hr : t'.Represents (t.live.filter fun r => !p r)) (hn : t'.nextSerial = t.nextSerial) {gone : List (Registration P)}
    (hgone : gone.Perm (t.live.filter p)) : t.Ends gone t' where
  represents := by rwa [hr.live_eq]
  nodup := hgone.nodup_iff.2 (h.nodup.filter _)
  mem_iff := by
    intro r
    rw [hgone.mem_iff, hr.live_eq, List.mem_filter, List.mem_filter]
    cases p r <;> simp
  kept := by
    intro r hm
    rw [hr.live_eq] at hm
    exact (List.mem_filter.1 hm).1
  nextSerial := hn

end Represents

/-! ## What a call leaves -/

/-- A call leaves the table as it was, or with one more registration, or without the entries of some slots. -/
theorem answer_leaves (t : PendingTable P) (call : TableCall P) :
    (t.answer call).2 = t ∨
    (∃ query payload token, t.register query payload = .ok (token, (t.answer call).2)) ∨
    ∃ slots, (t.answer call).2 = (t.removeAll slots).2 := by
  cases call with
  | register query payload =>
    cases h : t.register query payload with
    | error e => exact Or.inl (by rw [answer, h])
    | ok registered => exact Or.inr (Or.inl ⟨query, payload, registered.1, by rw [answer, h]⟩)
  | lookup id source => exact Or.inl rfl
  | clear token =>
    cases h : t.clear token with
    | none => exact Or.inl (by rw [answer, h])
    | some cleared => exact Or.inr (Or.inr ⟨[token.index], by rw [answer, h, removeAll, remove_of_clear h]; rfl⟩)
  | purge now maxAge => exact Or.inr (Or.inr ⟨_, rfl⟩)
  | size => exact Or.inl rfl
  | isEmpty => exact Or.inl rfl

/-- No call changes how many entries a table has room for. -/
theorem capacity_answer (t : PendingTable P) (call : TableCall P) : (t.answer call).2.capacity = t.capacity := by
  rcases t.answer_leaves call with he | ⟨query, payload, token, hr⟩ | ⟨slots, he⟩
  · rw [he]
  · exact capacity_of_register hr
  · rw [he, capacity_removeAll]

/-! ## One call -/

/-- Clearing hands out the registration of the token, and nothing if it is not there. -/
theorem Represents.clear_cases (h : t.Represents t.live) (token : Token) :
    (∃ r ∈ t.live, r.token = token ∧ (t.answer (.clear token)).1 = .cleared (some r.contents) ∧
      t.Ends [r] (t.answer (.clear token)).2) ∨
    ((∀ r ∈ t.live, r.token ≠ token) ∧ t.answer (.clear token) = (.cleared none, t)) := by
  by_cases ht : ∃ r ∈ t.live, r.token = token
  · obtain ⟨r, hr, rfl⟩ := ht
    obtain ⟨t', he, hnext, -, hrest⟩ := h.clear_mem hr
    have hanswer : t.answer (.clear r.token) = (.cleared (some r.contents), t') := by
      rw [answer, he]
      rfl
    have hothers : t.live.filter (·.token ≠ r.token) = t.live.filter fun x => !decide (x.token = r.token) := by
      simp
    have hself : [r].Perm (t.live.filter (·.token = r.token)) := by
      refine (List.perm_ext_iff_of_nodup (List.nodup_singleton r) (h.nodup.filter _)).2 fun x => ?_
      rw [List.mem_singleton, List.mem_filter, decide_eq_true_iff]
      exact ⟨fun he => by rw [he]; exact ⟨hr, rfl⟩, fun ⟨hx, he⟩ => h.eq_of_token hx hr he⟩
    rw [hanswer]
    rw [hothers] at hrest
    exact Or.inl ⟨r, hr, rfl, rfl, h.ends_filter hrest hnext hself⟩
  · have hnone : ∀ r ∈ t.live, r.token ≠ token := fun r hr he => ht ⟨r, hr, he⟩
    refine Or.inr ⟨hnone, ?_⟩
    rw [answer, h.clear_not_mem hnone]

/-- Later on the token of a registration takes this registration out if it is still there, and nothing otherwise. -/
theorem Step.clear_cases (ht : t.Represents t.live) (h : t.Step t') {r : Registration P}
    (hr : r ∈ t.live) :
    (r ∈ t'.live ∧ (t'.answer (.clear r.token)).1 = .cleared (some r.contents) ∧
      t'.Ends [r] (t'.answer (.clear r.token)).2) ∨
    (r ∉ t'.live ∧ t'.answer (.clear r.token) = (.cleared none, t')) := by
  rcases h.represents.clear_cases r.token with ⟨x, hx, he, hanswer, hends⟩ | ⟨hnone, hanswer⟩
  · obtain rfl := h.eq_of_token ht hr hx he
    exact Or.inl ⟨hx, hanswer, hends⟩
  · exact Or.inr ⟨fun hm => hnone r hm rfl, hanswer⟩

/-- What a call does: it adds one registration, and answers with its token; or it ends some, and hands these out. -/
theorem Represents.answer_cases (h : t.Represents t.live) (call : TableCall P) :
    (∃ query payload token, call = .register query payload ∧ (t.answer call).1 = .registered token ∧
      t.Adds ⟨token, query.kept, payload⟩ (t.answer call).2) ∨
    ((∀ token, (t.answer call).1 ≠ .registered token) ∧ ∃ gone, (t.answer call).1.handedOut = gone.map (·.contents) ∧
      t.Ends gone (t.answer call).2) := by
  cases call with
  | register query payload =>
    rcases h.register_cases query payload with ⟨he, -⟩ | ⟨he, -, -⟩ | ⟨token, t', he, -, -, hserial, hnext, -, hrest⟩
    · rw [answer, he]
      exact Or.inr ⟨nofun, [], rfl, h.ends_nil⟩
    · rw [answer, he]
      exact Or.inr ⟨nofun, [], rfl, h.ends_nil⟩
    · rw [answer, he]
      have hlive := hrest.live_eq
      exact Or.inl ⟨query, payload, token, rfl, rfl, hlive ▸ hrest, hlive, hserial, hnext⟩
  | lookup id source => exact Or.inr ⟨nofun, [], rfl, h.ends_nil⟩
  | clear token =>
    rcases h.clear_cases token with ⟨r, -, -, he, hends⟩ | ⟨-, he⟩
    · exact Or.inr ⟨by rw [he]; nofun, [r], by rw [he]; rfl, hends⟩
    · rw [he]
      exact Or.inr ⟨nofun, [], rfl, h.ends_nil⟩
  | purge now maxAge =>
    obtain ⟨t', he, hnext, -, hrest⟩ := h.purge now maxAge
    rw [answer, he]
    exact Or.inr ⟨nofun, _, rfl, h.ends_filter hrest hnext (h.registrations_perm.filter _)⟩
  | size => exact Or.inr ⟨nofun, [], rfl, h.ends_nil⟩
  | isEmpty => exact Or.inr ⟨nofun, [], rfl, h.ends_nil⟩

/-! ## One moment after another -/

/-- The tables at one moment after another: from each to the next, one registration is added or some are ended. -/
structure History (table : Nat → PendingTable P) : Prop where
  represents : (table 0).Represents (table 0).live
  changes : ∀ k, (∃ r, (table k).Adds r (table (k + 1))) ∨ ∃ gone, (table k).Ends gone (table (k + 1))

/-- A machine whose calls add one registration or end some makes a history. -/
theorem History.of_stateAt {σ κ α : Type} {answer : σ → κ → α × σ} (table : σ → PendingTable P)
    (hanswer : ∀ s call, (table s).Represents (table s).live →
      (∃ r, (table s).Adds r (table (answer s call).2)) ∨ ∃ gone, (table s).Ends gone (table (answer s call).2))
    {s : σ} (h : (table s).Represents (table s).live) (calls : List κ) :
    History fun k => table (stateAt answer s calls k) where
  represents := by rwa [stateAt_zero]
  changes := by
    intro k
    have hk : (table (stateAt answer s calls k)).Represents (table (stateAt answer s calls k)).live := by
      refine stateAt_induction (P := fun s => (table s).Represents (table s).live) ?_ (Nat.zero_le k) (by rwa [stateAt_zero])
      intro s call hs
      rcases hanswer s call hs with ⟨r, hadds⟩ | ⟨gone, hends⟩
      · exact hadds.represents
      · exact hends.represents
    cases hc : calls[k]? with
    | none =>
      rw [stateAt_succ_of_none hc]
      exact Or.inr ⟨[], hk.ends_nil⟩
    | some call =>
      rw [stateAt_succ hc]
      exact hanswer _ call hk

namespace History

variable {table : Nat → PendingTable P}

/-- Between two moments lies a step. -/
theorem step (h : History table) {j k : Nat} (hjk : j ≤ k) : (table j).Step (table k) := by
  have hnext : ∀ k, (table k).Step (table (k + 1)) := by
    intro k
    rcases h.changes k with ⟨r, hadds⟩ | ⟨gone, hends⟩
    · exact hadds.step
    · exact hends.step
  have hinit : (table j).Represents (table j).live := by
    cases j with
    | zero => exact h.represents
    | succ j => exact (hnext j).represents
  induction hjk with
  | refl => exact hinit.step_refl
  | @step k _ ih => exact ih.trans (hnext k)

/-- At every moment the table is in order. -/
theorem represents_at (h : History table) (k : Nat) : (table k).Represents (table k).live :=
  (h.step (Nat.le_refl k)).represents

/-- Of two registrations the later one has the higher number. -/
theorem serial_lt (h : History table) {i j : Nat} (hij : i < j) {a b : Registration P}
    (ha : (table i).Adds a (table (i + 1))) (hb : (table j).Adds b (table (j + 1))) : a.token.serial < b.token.serial := by
  have hle := (h.step hij).nextSerial
  rw [ha.nextSerial, ← ha.serial, ← hb.serial] at hle
  exact hle

/-- No two registrations get one number. -/
theorem eq_of_serial (h : History table) {i j : Nat} {a b : Registration P} (ha : (table i).Adds a (table (i + 1)))
    (hb : (table j).Adds b (table (j + 1))) (hab : a.token.serial = b.token.serial) : i = j := by
  rcases Nat.lt_trichotomy i j with hlt | heq | hgt
  · exact absurd hab (Nat.ne_of_lt (h.serial_lt hlt ha hb))
  · exact heq
  · exact absurd hab.symm (Nat.ne_of_lt (h.serial_lt hgt hb ha))

/-- What is pending was there at first, or was added at some moment. -/
theorem mem_or_added (h : History table) {k : Nat} {r : Registration P} (hr : r ∈ (table k).live) :
    r ∈ (table 0).live ∨ ∃ i < k, (table i).Adds r (table (i + 1)) := by
  induction k with
  | zero => exact Or.inl hr
  | succ k ih =>
    have hbefore : r ∈ (table k).live → r ∈ (table 0).live ∨ ∃ i < k + 1, (table i).Adds r (table (i + 1)) := by
      intro hr
      rcases ih hr with hr | ⟨i, hi, hadds⟩
      · exact Or.inl hr
      · exact Or.inr ⟨i, Nat.lt_succ_of_lt hi, hadds⟩
    rcases h.changes k with ⟨x, hadds⟩ | ⟨gone, hends⟩
    · have hx := hr
      rw [hadds.live, List.mem_append, List.mem_singleton] at hx
      rcases hx with hx | rfl
      · exact hbefore hx
      · exact Or.inr ⟨k, Nat.lt_succ_self k, hadds⟩
    · exact hbefore (hends.kept r hr)

/-- What was added at some moment was not pending at it or before. -/
theorem lt_of_added (h : History table) {i k : Nat} {r : Registration P} (hi : (table i).Adds r (table (i + 1)))
    (hk : r ∈ (table k).live) : i < k := by
  by_contra hle
  have hfresh := Nat.lt_of_lt_of_le ((h.represents_at k).fresh r hk) (h.step (Nat.not_lt.1 hle)).nextSerial
  exact Nat.ne_of_lt hfresh hi.serial

/-- What is pending now and was registered before an earlier moment was pending at that moment. -/
theorem mem_between (h : History table) {i j k : Nat} (hij : i ≤ j) (hjk : j ≤ k) {r : Registration P}
    (hi : r ∈ (table i).live) (hk : r ∈ (table k).live) : r ∈ (table j).live :=
  (h.step hjk).mem_of_old hk (Nat.lt_of_lt_of_le ((h.represents_at i).fresh r hi) (h.step hij).nextSerial)

/-- A registration ends at one moment at most. -/
theorem ended_once (h : History table) {j k : Nat} {r : Registration P} (hj : r ∈ (table j).live)
    (hj' : r ∉ (table (j + 1)).live) (hk : r ∈ (table k).live) (hk' : r ∉ (table (k + 1)).live) : j = k := by
  rcases Nat.lt_trichotomy j k with hlt | heq | hgt
  · exact absurd (h.mem_between (Nat.le_succ j) hlt hj hk) hj'
  · exact heq
  · exact absurd (h.mem_between (Nat.le_succ k) hgt hk hj) hk'

end History

/-! ## Many calls -/

variable {calls : List (TableCall P)}

/-- Several calls make a history. -/
theorem Represents.history (h : t.Represents t.live) (calls : List (TableCall P)) : History (stateAt answer t calls) := by
  refine History.of_stateAt (fun t => t) (fun s call hs => ?_) h calls
  rcases hs.answer_cases call with ⟨query, payload, token, -, -, hadds⟩ | ⟨-, gone, -, hends⟩
  · exact Or.inl ⟨_, hadds⟩
  · exact Or.inr ⟨gone, hends⟩

/-- A call that is answered with a token added a registration. -/
theorem Represents.adds_of_registered (h : t.Represents t.live) {i : Nat} {token : Token}
    (hi : (transcript answer t calls).1[i]? = some (.registered token)) :
    ∃ query payload, calls[i]? = some (.register query payload) ∧
      (stateAt answer t calls i).Adds ⟨token, query.kept, payload⟩ (stateAt answer t calls (i + 1)) := by
  rw [getElem?_transcript] at hi
  obtain ⟨call, hcall, hanswer⟩ := Option.map_eq_some_iff.1 hi
  rcases ((h.history calls).represents_at i).answer_cases call with ⟨query, payload, token', rfl, he, hadds⟩ | ⟨hne, -⟩
  · rw [hanswer] at he
    cases he
    rw [stateAt_succ hcall]
    exact ⟨query, payload, hcall, hadds⟩
  · exact absurd hanswer (hne token)

/-- A call that added a registration is one to register it, and is answered with its token. -/
theorem Represents.registered_of_adds (h : t.Represents t.live) {i : Nat} {r : Registration P}
    (hadds : (stateAt answer t calls i).Adds r (stateAt answer t calls (i + 1))) :
    (∃ query, calls[i]? = some (.register query r.payload) ∧ query.kept = r.query) ∧
      (transcript answer t calls).1[i]? = some (.registered r.token) := by
  have hi : (stateAt answer t calls i).Represents (stateAt answer t calls i).live := (h.history calls).represents_at i
  cases hcall : calls[i]? with
  | none =>
    rw [stateAt_succ_of_none hcall] at hadds
    exact absurd hadds.mem (hadds.not_mem hi)
  | some call =>
    rw [stateAt_succ hcall] at hadds
    rcases hi.answer_cases call with ⟨query, payload, token, rfl, he, hadds'⟩ | ⟨-, gone, -, hends⟩
    · obtain rfl : r = ⟨token, query.kept, payload⟩ := by simpa using hadds.live.symm.trans hadds'.live
      exact ⟨⟨query, rfl, rfl⟩, by rw [getElem?_transcript, hcall, Option.map_some, he]⟩
    · exact absurd (hends.kept r hadds.mem) (hadds.not_mem hi)

/-- No two calls are answered with tokens of one number. -/
theorem Represents.eq_of_registered (h : t.Represents t.live) {i j : Nat} {a b : Token}
    (hi : (transcript answer t calls).1[i]? = some (.registered a))
    (hj : (transcript answer t calls).1[j]? = some (.registered b)) (hab : a.serial = b.serial) : i = j := by
  obtain ⟨_, _, -, ha⟩ := h.adds_of_registered hi
  obtain ⟨_, _, -, hb⟩ := h.adds_of_registered hj
  exact (h.history calls).eq_of_serial ha hb hab

end PendingTable

end DnsRelay
