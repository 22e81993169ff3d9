import DnsRelay.Proofs.Pending.Refinement

/-!
# Tables with a gap

A query that is registered and taken out again at once leaves a gap: a serial number and a mailbox that were given out for
nothing (`Gap`), and perhaps a slot that is free now and was not there before. `PendingTable.Mirrors` relates a table without the
gap to one with it. Both answer alike, to the very slots that they give out, but for the serial numbers and the mailboxes behind
the gap, and they go on to be related.
-/

namespace DnsRelay

/-- The number that is given out in place of `n` if the number `gap` was given out for nothing. -/
def past (gap n : Nat) : Nat :=
  if n < gap then n else n + 1

/-- Numbers in front of the gap stay. -/
theorem past_of_lt {gap n : Nat} (h : n < gap) : past gap n = n :=
  if_pos h

/-- Numbers from the gap on become one higher. -/
theorem past_of_le {gap n : Nat} (h : gap ≤ n) : past gap n = n + 1 :=
  if_neg (Nat.not_lt.2 h)

/-- Numbers stay in their order. -/
theorem past_le_iff (gap a b : Nat) : past gap a ≤ past gap b ↔ a ≤ b := by
  rw [past, past]
  split <;> split <;> omega

/-- Different numbers stay different. -/
theorem past_inj (gap a b : Nat) : past gap a = past gap b ↔ a = b := by
  rw [Nat.le_antisymm_iff, Nat.le_antisymm_iff, past_le_iff, past_le_iff]

/-- The serial number and the mailbox that were given out for nothing. -/
structure Gap where
  serial : Nat
  mailbox : Nat

namespace Gap

/-- The token that is given out in place of another one. -/
def token (g : Gap) (t : Token) : Token :=
  { t with serial := past g.serial t.serial }

/-- The entry that is kept in place of another one. -/
def entry (g : Gap) (e : PendingEntry Nat) : PendingEntry Nat :=
  { e with payload := past g.mailbox e.payload, serial := past g.serial e.serial }

/-- The registration that is made in place of another one. -/
def registration (g : Gap) (r : Registration Nat) : Registration Nat :=
  { r with token := g.token r.token, payload := past g.mailbox r.payload }

end Gap

/-! ## Slots -/

namespace Slots

variable {α : Type} {rename : α → α}

/-- The slots of `s'` hold what those of `s` hold, under other names. The same slots are free in the same order, but that `s'` may
have one more slot behind the others, which is taken after all that are free. -/
structure Mirrors (rename : α → α) (s s' : Slots α) : Prop where
  lawful : s.Lawful
  lawful' : s'.Lawful
  holds : ∀ i, s'.get? i = (s.get? i).map rename
  room : s'.cells.size = s.cells.size ∧ s'.free = s.free ∨
    s'.cells.size = s.cells.size + 1 ∧ s'.free = s.free ++ [s.cells.size]

namespace Mirrors

variable {s s' : Slots α}

/-- As many slots are taken. -/
theorem size (h : s.Mirrors rename s') : s'.size = s.size := by
  rcases h.room with ⟨hsize, hfree⟩ | ⟨hsize, hfree⟩
  · rw [Slots.size, Slots.size, hsize, hfree]
  · rw [Slots.size, Slots.size, hsize, hfree, List.length_append, List.length_singleton, Nat.add_sub_add_right]

/-- A value is put into the same slot. -/
theorem insert (h : s.Mirrors rename s') (x : α) :
    (s'.insert (rename x)).1 = (s.insert x).1 ∧ (s.insert x).2.Mirrors rename (s'.insert (rename x)).2 := by
  have hroom : (s'.insert (rename x)).1 = (s.insert x).1 ∧
      ((s'.insert (rename x)).2.cells.size = (s.insert x).2.cells.size ∧
          (s'.insert (rename x)).2.free = (s.insert x).2.free ∨
        (s'.insert (rename x)).2.cells.size = (s.insert x).2.cells.size + 1 ∧
          (s'.insert (rename x)).2.free = (s.insert x).2.free ++ [(s.insert x).2.cells.size]) := by
    cases hs : s.free with
    | nil =>
      rcases h.room with ⟨hsize, hfree⟩ | ⟨hsize, hfree⟩
      · rw [hs] at hfree
        simp [Slots.insert, hs, hfree, hsize]
      · -- the slot in which the two differ is taken, and they differ no longer
        rw [hs, List.nil_append] at hfree
        simp [Slots.insert, hs, hfree, hsize]
    | cons i free =>
      rcases h.room with ⟨hsize, hfree⟩ | ⟨hsize, hfree⟩
      · rw [hs] at hfree
        simp [Slots.insert, hs, hfree, hsize]
      · rw [hs, List.cons_append] at hfree
        simp [Slots.insert, hs, hfree, hsize]
  refine ⟨hroom.1, h.lawful.insert x, h.lawful'.insert (rename x), ?_, hroom.2⟩
  intro i
  rw [h.lawful'.get?_insert, h.lawful.get?_insert, hroom.1]
  split
  · rfl
  · exact h.holds i

/-- The same slot is emptied. -/
theorem erase (h : s.Mirrors rename s') (i : Nat) : (s.erase i).Mirrors rename (s'.erase i) := by
  refine ⟨h.lawful.erase i, h.lawful'.erase i, ?_, ?_⟩
  · intro j
    rw [get?_erase, get?_erase]
    split
    · rfl
    · exact h.holds j
  · have hi := h.holds i
    cases hx : s.get? i with
    | none =>
      rw [hx] at hi
      simpa only [Slots.erase, hx, hi, Option.map_none] using h.room
    | some x =>
      rw [hx] at hi
      simpa only [Slots.erase, hx, hi, Option.map_some, Array.size_setIfInBounds, List.cons_append, List.cons.injEq,
        true_and] using h.room

/-- The same slots hold values with a property, if names do not matter for it. -/
theorem indexesWhere (h : s.Mirrors rename s') {p : α → Bool} (hp : ∀ x, p (rename x) = p x) :
    s'.indexesWhere p = s.indexesWhere p := by
  have hany : ∀ i, (s'.get? i).any p = (s.get? i).any p := by
    intro i
    rw [h.holds i]
    cases s.get? i with
    | none => rfl
    | some x => exact hp x
  rcases h.room with ⟨hsize, -⟩ | ⟨hsize, -⟩
  · simp only [Slots.indexesWhere, hsize, hany]
  · have hlast : s.get? s.cells.size = none := by simp [Slots.get?]
    simp [Slots.indexesWhere, hsize, hany, List.range_succ, hlast]

end Mirrors

/-- Slots into which a value was put that was taken out at once mirror the slots before. -/
theorem Lawful.mirrors_erase_insert {s : Slots α} (h : s.Lawful) (hrename : ∀ i x, s.get? i = some x → rename x = x) (x : α) :
    s.Mirrors rename ((s.insert x).2.erase (s.insert x).1) := by
  have hheld := h.get?_insert x
  refine ⟨h, (h.insert x).erase _, ?_, ?_⟩
  · intro i
    rw [get?_erase, hheld]
    by_cases hi : i = (s.insert x).1
    · rw [if_pos hi, hi, h.get?_insert_self]
      rfl
    · rw [if_neg hi, if_neg hi]
      cases hy : s.get? i with
      | none => rfl
      | some y => rw [Option.map_some, hrename i y hy]
  · have hself := hheld (s.insert x).1
    rw [if_pos rfl] at hself
    rw [Slots.erase, hself]
    cases hs : s.free with
    | nil => simp [Slots.insert, hs]
    | cons i free => simp [Slots.insert, hs]

end Slots

/-! ## Tables -/

namespace PendingTable

/-- `t'` is `t` with a gap in the numbers that were given out. -/
structure Mirrors (g : Gap) (t t' : PendingTable Nat) : Prop where
  capacity : t'.capacity = t.capacity
  entries : t.entries.Mirrors g.entry t'.entries
  byKey : ∀ key, t'.byKey.lookup key = t.byKey.lookup key
  byId : ∀ id, t'.byId.lookup id = t.byId.lookup id
  serial_le : g.serial ≤ t.nextSerial
  nextSerial : t'.nextSerial = t.nextSerial + 1

namespace Mirrors

variable {g : Gap} {t t' : PendingTable Nat}

/-- As many queries are pending. -/
theorem size (h : t.Mirrors g t') : t'.size = t.size :=
  h.entries.size

/-- Registering a query fails in both tables for one reason, or it takes the same slot of both. -/
theorem register (h : t.Mirrors g t') (query : PendingQuery) (mailbox : Nat) :
    (∃ e, t.register query mailbox = .error e ∧ t'.register query (past g.mailbox mailbox) = .error e) ∨
    ∃ token t₁ t₁', t.register query mailbox = .ok (token, t₁) ∧
      t'.register query (past g.mailbox mailbox) = .ok (g.token token, t₁') ∧ t₁.Mirrors g t₁' := by
  unfold PendingTable.register
  dsimp only
  rw [h.byKey, h.capacity, h.size, h.nextSerial]
  split
  · exact Or.inl ⟨_, rfl, rfl⟩
  · split
    · exact Or.inl ⟨_, rfl, rfl⟩
    · have hserial := past_of_le h.serial_le
      obtain ⟨hindex, hentries⟩ := h.entries.insert ⟨{ query with server := query.server.canonical }, mailbox, t.nextSerial⟩
      simp only [Gap.entry, hserial] at hindex hentries
      have htoken := (congrArg (Token.mk · (t.nextSerial + 1)) hindex).trans (congrArg (Token.mk _) hserial.symm)
      refine Or.inr ⟨_, _, _, rfl, congrArg (fun token => Except.ok (token, _)) htoken,
        ⟨rfl, hentries, ?_, ?_, Nat.le_succ_of_le h.serial_le, rfl⟩⟩
      · intro key
        rw [List.lookup_cons, List.lookup_cons, h.byKey, ← hindex]
      · intro id
        rw [lookup_updateSlots, lookup_updateSlots, h.byId, h.byId, ← hindex]

/-- The same query is found, under its token. -/
theorem lookup (h : t.Mirrors g t') (id : UInt16) (source : Endpoint) :
    t'.lookup id source = (t.lookup id source).map fun found => (g.token found.1, found.2) := by
  have hslot : t'.slotFor? id source = t.slotFor? id source := by
    rw [slotFor?, slotFor?, slotsOf, slotsOf, h.byKey, h.byId]
  rw [PendingTable.lookup, PendingTable.lookup, hslot]
  cases t.slotFor? id source with
  | none => rfl
  | some i =>
    have hi := h.entries.holds i
    cases hx : t.entries.get? i with
    | none =>
      rw [hx] at hi
      simp [hx, hi]
    | some e =>
      rw [hx] at hi
      simp [hx, hi, Gap.token, Gap.entry]

/-- The same entry is taken out of a slot. -/
theorem remove (h : t.Mirrors g t') (i : Nat) :
    (t.remove i = none ∧ t'.remove i = none) ∨
    ∃ query mailbox t₁ t₁', t.remove i = some ((query, mailbox), t₁) ∧
      t'.remove i = some ((query, past g.mailbox mailbox), t₁') ∧ t₁.Mirrors g t₁' := by
  have hi := h.entries.holds i
  cases hx : t.entries.get? i with
  | none =>
    rw [hx] at hi
    exact Or.inl ⟨by rw [PendingTable.remove, hx]; rfl, by rw [PendingTable.remove, hi]; rfl⟩
  | some e =>
    rw [hx] at hi
    refine Or.inr ⟨e.query, e.payload, _, _, congrArg (Option.map _) hx, congrArg (Option.map _) hi,
      ⟨h.capacity, h.entries.erase i, ?_, ?_, h.serial_le, h.nextSerial⟩⟩
    · intro key
      rw [IndexAux.lookup_filter_ne, IndexAux.lookup_filter_ne, h.byKey]
      rfl
    · intro id
      rw [lookup_updateSlots, lookup_updateSlots, h.byId, h.byId]
      rfl

/-- The same entry is taken out under a token. -/
theorem clear (h : t.Mirrors g t') (token : Token) :
    (t.clear token = none ∧ t'.clear (g.token token) = none) ∨
    ∃ query mailbox t₁ t₁', t.clear token = some ((query, mailbox), t₁) ∧
      t'.clear (g.token token) = some ((query, past g.mailbox mailbox), t₁') ∧ t₁.Mirrors g t₁' := by
  have hi := h.entries.holds token.index
  rw [PendingTable.clear, PendingTable.clear, Gap.token, hi]
  cases hx : t.entries.get? token.index with
  | none => exact Or.inl ⟨rfl, rfl⟩
  | some e =>
    dsimp only [Option.map_some, Gap.entry]
    by_cases hserial : e.serial = token.serial
    · rw [if_pos hserial, if_pos ((past_inj ..).2 hserial)]
      exact h.remove token.index
    · rw [if_neg hserial, if_neg fun he => hserial ((past_inj ..).1 he)]
      exact Or.inl ⟨rfl, rfl⟩

/-- The same entries are taken out of several slots. -/
theorem removeAll (h : t.Mirrors g t') (is : List Nat) :
    (t'.removeAll is).1 = (t.removeAll is).1.map (fun gone => (gone.1, past g.mailbox gone.2)) ∧
      (t.removeAll is).2.Mirrors g (t'.removeAll is).2 := by
  induction is generalizing t t' with
  | nil => exact ⟨rfl, h⟩
  | cons i is ih =>
    rw [PendingTable.removeAll, PendingTable.removeAll]
    rcases h.remove i with ⟨hnone, hnone'⟩ | ⟨query, mailbox, t₁, t₁', hsome, hsome', h₁⟩
    · rw [hnone, hnone']
      exact ih h
    · obtain ⟨hgone, hnext⟩ := ih h₁
      rw [hsome, hsome']
      dsimp only
      exact ⟨by rw [hgone, List.map_cons], hnext⟩

/-- The same entries are purged. -/
theorem purge (h : t.Mirrors g t') (now maxAge : Nat) :
    (t'.purge now maxAge).1 = (t.purge now maxAge).1.map (fun gone => (gone.1, past g.mailbox gone.2)) ∧
      (t.purge now maxAge).2.Mirrors g (t'.purge now maxAge).2 := by
  rw [PendingTable.purge, PendingTable.purge, h.entries.indexesWhere fun _ => rfl]
  exact h.removeAll _

/-- The same queries are pending, in the same order. -/
theorem live (h : t.Mirrors g t') : t'.live = t.live.map g.registration := by
  have hslot : ∀ i, (t'.entries.get? i).map (·.registration i) =
      ((t.entries.get? i).map (·.registration i)).map g.registration := by
    intro i
    rw [h.entries.holds i]
    cases t.entries.get? i with
    | none => rfl
    | some e => rfl
  have hall : t'.registrations = t.registrations.map g.registration := by
    simp only [registrations, hslot, List.map_filterMap]
    rcases h.entries.room with ⟨hsize, -⟩ | ⟨hsize, -⟩
    · rw [hsize]
    · have hlast : t.entries.get? t.entries.cells.size = none := by simp [Slots.get?]
      rw [hsize, List.range_succ, List.filterMap_append]
      simp [hlast]
  rw [PendingTable.live, PendingTable.live, hall]
  refine (List.map_mergeSort fun a _ b _ => ?_).symm
  exact decide_eq_decide.2 (past_le_iff ..).symm

end Mirrors

namespace Represents

variable {t : PendingTable Nat} {l : List (Registration Nat)}

/-- The index by id leads to the same slots after a slot that is free was listed for an id and taken off its list at once. -/
theorem lookup_updateSlots_twice (h : t.Represents l) {i : Nat} (hi : ∀ r ∈ l, r.token.index ≠ i) (id k : UInt16) :
    (updateSlots (updateSlots t.byId id (· ++ [i])) id (·.filter (· ≠ i))).lookup k = t.byId.lookup k := by
  rw [lookup_updateSlots, lookup_updateSlots, if_pos rfl, getD_listed?]
  by_cases hk : k = id
  · have hslots : ∀ j ∈ (l.filter (·.query.id = id)).map (·.token.index), j ≠ i := by
      intro j hj
      obtain ⟨r, hr, rfl⟩ := List.mem_map.1 hj
      exact hi r (List.mem_filter.1 hr).1
    have hkept : ((l.filter (·.query.id = id)).map (·.token.index)).filter (· ≠ i) =
        (l.filter (·.query.id = id)).map (·.token.index) :=
      List.filter_eq_self.2 fun j hj => decide_eq_true (hslots j hj)
    rw [if_pos hk, hk, h.byId id, getD_listed?, List.filter_append, hkept]
    simp
  · rw [if_neg hk, lookup_updateSlots, if_neg hk]

/-- A table in which a query was registered and taken out at once has a gap, the serial number of this query. -/
theorem mirrors_clear_register (h : t.Represents l) {g : Gap} (hserial : g.serial = t.nextSerial)
    (hmailbox : ∀ r ∈ l, r.payload < g.mailbox) {query : PendingQuery} {mailbox : Nat} {token : Token}
    {gone : PendingQuery × Nat} {t₁ t₂ : PendingTable Nat} (hregister : t.register query mailbox = .ok (token, t₁))
    (hclear : t₁.clear token = some (gone, t₂)) : t.Mirrors g t₂ := by
  unfold register at hregister
  dsimp only at hregister
  split at hregister
  · cases hregister
  · rename_i hfree
    split at hregister
    · cases hregister
    · cases hregister
      generalize hentry : (⟨{ query with server := query.server.canonical }, mailbox, t.nextSerial⟩ : PendingEntry Nat) = e
        at hclear
      have hheld := h.lawful.get?_insert e (t.entries.insert e).1
      rw [if_pos rfl] at hheld
      rw [clear] at hclear
      dsimp only at hclear
      rw [hheld] at hclear
      dsimp only at hclear
      rw [if_pos (by rw [← hentry]), PendingTable.remove, hheld] at hclear
      cases hclear
      refine ⟨rfl, h.lawful.mirrors_erase_insert ?_ e, ?_, ?_, Nat.le_of_eq hserial, rfl⟩
      · intro i x hx
        have hlive := (h.holds i x).1 hx
        have hold : x.serial < g.serial := hserial ▸ h.fresh _ hlive
        have hbox : x.payload < g.mailbox := hmailbox _ hlive
        rw [Gap.entry, past_of_lt hold, past_of_lt hbox]
      · intro key
        rw [IndexAux.lookup_filter_ne, List.lookup_cons, ← hentry]
        by_cases hkey : key = (query.id, query.server.canonical)
        · rw [if_pos hkey, hkey]
          exact (Option.not_isSome_iff_eq_none.1 hfree).symm
        · rw [if_neg hkey, beq_false_of_ne hkey]
      · intro id
        rw [← hentry]
        exact h.lookup_updateSlots_twice (fun r hr => h.index_ne_insert _ hr) query.id id

end Represents

end PendingTable

end DnsRelay
