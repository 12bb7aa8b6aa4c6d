import Mathlib
import PooledSessions.Pool.Step
/-!
# The tables of the pool, kept in order

The tables are in order (`Pool.InOrder`) when no session is tracked twice, the idle stack holds
exactly the sessions tracked as idle, tracked sessions and pending creations stay within the limit,
and a closed pool is empty.  They stand for a list of leases (`Pool.Lent`) when every session tracked
as leased has its lease in the list, no session tracked as idle has one, and no two leases are on one
session.  Everything the pool does to its tables keeps both.
-/

namespace PooledSessions

namespace Pool

/-! ## Looking up -/

section Lookup

variable {β : Type}

theorem mem_of_lookup {κ : Type} [BEq κ] [LawfulBEq κ] {xs : List (κ × β)} {k : κ} {b : β}
    (h : xs.lookup k = some b) : (k, b) ∈ xs := by
  obtain ⟨before, after, rfl, -⟩ := List.lookup_eq_some_iff.mp h
  simp

theorem lookup_of_mem {xs : List (SessionId × β)} {id : SessionId} {b : β}
    (hnd : (xs.map Prod.fst).Nodup) (h : (id, b) ∈ xs) : xs.lookup id = some b := by
  induction xs with
  | nil => simp at h
  | cons x xs ih =>
    obtain ⟨k, v⟩ := x
    rw [List.map_cons, List.nodup_cons] at hnd
    rcases List.mem_cons.mp h with heq | hin
    · cases heq
      simp
    · have hne : id ≠ k := fun he => hnd.1 (he ▸ List.mem_map.mpr ⟨(id, b), hin, rfl⟩)
      rw [List.lookup_cons, beq_false_of_ne hne]
      exact ih hnd.2 hin

theorem lookup_eq_none_iff_notMem {xs : List (SessionId × β)} {id : SessionId} :
    xs.lookup id = none ↔ id ∉ xs.map Prod.fst := by
  rw [List.lookup_eq_none_iff]
  simp only [bne_iff_ne, List.mem_map, not_exists, not_and]
  exact ⟨fun h p hp he => h p hp he.symm, fun h p hp he => h p hp he.symm⟩

/-- Taking a key out leaves all other look-ups as they were. -/
theorem lookup_filter_ne (xs : List (SessionId × β)) (id k : SessionId) :
    (xs.filter (·.1 ≠ id)).lookup k = if k = id then none else xs.lookup k := by
  induction xs with
  | nil => simp
  | cons x xs ih =>
    obtain ⟨key, v⟩ := x
    rw [List.filter_cons]
    by_cases hx : key = id
    · subst hx
      by_cases hk : k = key
      · simpa [hk] using ih
      · simpa [hk, List.lookup_cons, beq_false_of_ne hk] using ih
    · by_cases hk : k = key
      · subst hk
        simp [hx]
      · simpa [hx, hk, List.lookup_cons, beq_false_of_ne hk] using ih

theorem nodup_map_filter {γ : Type} {xs : List (SessionId × β)} (f : SessionId × β → γ)
    (keep : SessionId × β → Bool) (h : (xs.map f).Nodup) : ((xs.filter keep).map f).Nodup :=
  h.sublist (List.filter_sublist.map f)

end Lookup

/-- Changing a session leaves all other look-ups as they were. -/
theorem lookup_changed (id : SessionId) (t : Tracked) (xs : List (SessionId × Tracked))
    (k : SessionId) :
    (changed id t xs).lookup k = if k = id then (xs.lookup id).map fun _ => t else xs.lookup k := by
  induction xs with
  | nil => simp [changed]
  | cons x xs ih =>
    obtain ⟨key, v⟩ := x
    rw [changed] at ih ⊢
    rw [List.map_cons]
    by_cases hkey : key = id
    · subst hkey
      by_cases hk : k = key
      · simp [hk]
      · simpa [hk, List.lookup_cons, beq_false_of_ne hk] using ih
    · have hkey' : (id == key) = false := beq_false_of_ne (Ne.symm hkey)
      by_cases hk : k = key
      · subst hk
        simp [hkey]
      · simpa [hk, hkey, hkey', List.lookup_cons, beq_false_of_ne hk] using ih

@[simp] theorem map_fst_changed (id : SessionId) (t : Tracked) (xs : List (SessionId × Tracked)) :
    (changed id t xs).map Prod.fst = xs.map Prod.fst := by
  rw [changed, List.map_map]
  apply List.map_congr_left
  rintro ⟨k, v⟩ -
  simp only [Function.comp]
  split <;> rfl

@[simp] theorem length_changed (id : SessionId) (t : Tracked) (xs : List (SessionId × Tracked)) :
    (changed id t xs).length = xs.length := by
  rw [changed, List.length_map]

/-! ## Order -/

/-- The names of the tracked sessions. -/
def names (p : Pool) : List SessionId := p.active.map Prod.fst

theorem find?_eq_none_iff {p : Pool} {id : SessionId} : p.find? id = none ↔ id ∉ p.names :=
  lookup_eq_none_iff_notMem

theorem mem_names_of_find? {p : Pool} {id : SessionId} {t : Tracked} (h : p.find? id = some t) :
    id ∈ p.names :=
  List.mem_map_of_mem (f := Prod.fst) (mem_of_lookup h)

/-- The tables of a pool with a given limit are in order. -/
structure InOrder (limit : Nat) (p : Pool) : Prop where
  /-- No session is tracked twice. -/
  names_nodup : p.names.Nodup
  /-- No session lies on the idle stack twice. -/
  idle_nodup : p.idle.Nodup
  /-- The idle stack holds exactly the sessions that are tracked as idle. -/
  mem_idle : ∀ id, id ∈ p.idle ↔ ∃ t, p.find? id = some t ∧ t.use = .idle
  /-- Tracked sessions and pending creations stay within the limit. -/
  room : p.active.length + p.pending ≤ limit
  /-- A closed pool tracks nothing. -/
  shut : p.closed = true → p.idle = [] ∧ p.active = []

theorem inOrder_fresh (limit : Nat) : InOrder limit fresh :=
  ⟨List.nodup_nil, List.nodup_nil, by simp [fresh, find?], by simp [fresh], by simp [fresh]⟩

/-- The tables without a session, wherever it stood. -/
def discard (p : Pool) (id : SessionId) : Pool :=
  { p with idle := p.idle.filter (· ≠ id), active := without id p.active }

theorem find?_discard (p : Pool) (id k : SessionId) :
    (p.discard id).find? k = if k = id then none else p.find? k :=
  lookup_filter_ne p.active id k

theorem find?_of_find?_discard {p : Pool} {id k : SessionId} {t : Tracked}
    (h : (p.discard id).find? k = some t) : k ≠ id ∧ p.find? k = some t := by
  rw [find?_discard] at h
  split at h
  · cases h
  · exact ⟨‹_›, h⟩

/-- The tables in which a tracked session was changed. -/
theorem find?_changed {p : Pool} {id : SessionId} {t : Tracked} (ht : p.find? id = some t)
    (idle : List SessionId) (t' : Tracked) (k : SessionId) :
    ({ p with idle := idle, active := changed id t' p.active } : Pool).find? k =
      if k = id then some t' else p.find? k := by
  simp only [find?] at ht ⊢
  rw [lookup_changed, ht, Option.map_some]

/-- A change that keeps a session's flag brings up no new flags. -/
theorem flag_of_find?_changed {p : Pool} {id : SessionId} {t t' : Tracked}
    (ht : p.find? id = some t) (hflag : t'.flag = t.flag) {idle : List SessionId} {k : SessionId}
    {u : Tracked}
    (hu : ({ p with idle := idle, active := changed id t' p.active } : Pool).find? k = some u) :
    ∃ v, p.find? k = some v ∧ v.flag = u.flag := by
  rw [find?_changed ht] at hu
  split at hu
  · rename_i he
    cases hu
    exact ⟨t, he ▸ ht, hflag.symm⟩
  · exact ⟨u, hu, rfl⟩

theorem find?_register (p : Pool) (s : SessionInfo) (flag : FlagNo) (now : Nat) (k : SessionId) :
    (p.register s flag now).find? k =
      if k = s.id then some ⟨s.node, flag, .leased, now⟩ else p.find? k := by
  simp only [find?, Pool.register, List.lookup_cons]
  by_cases he : k = s.id
  · simp [he]
  · rw [beq_false_of_ne he, if_neg he]
    simp only [without, lookup_filter_ne, if_neg he]

theorem names_register {p : Pool} {s : SessionInfo} (hnew : s.id ∉ p.names) (flag : FlagNo)
    (now : Nat) : (p.register s flag now).names = s.id :: p.names := by
  have hwithout : without s.id p.active = p.active := by
    refine List.filter_eq_self.mpr fun x hx => ?_
    have hne : x.1 ≠ s.id := fun he => hnew (List.mem_map.mpr ⟨x, hx, he⟩)
    simpa using hne
  simp only [names, Pool.register, hwithout, List.map_cons]

theorem names_discard (p : Pool) (id : SessionId) :
    (p.discard id).names = p.names.filter (· ≠ id) := by
  rw [names, names, discard, without, List.filter_map]
  rfl

namespace InOrder

variable {limit : Nat} {p : Pool}

/-- A pool that tracks a session is open. -/
theorem not_closed (h : InOrder limit p) {id : SessionId} {t : Tracked} (ht : p.find? id = some t) :
    p.closed = false := by
  by_contra hc
  have hempty := (h.shut (by simpa using hc)).2
  rw [find?, hempty] at ht
  cases ht

/-- A session may leave the tables, wherever it stood. -/
theorem discard (h : InOrder limit p) (id : SessionId) : InOrder limit (p.discard id) where
  names_nodup := nodup_map_filter _ _ h.names_nodup
  idle_nodup := h.idle_nodup.filter _
  mem_idle k := by
    have hk := h.mem_idle k
    rw [find?_discard]
    simp only [Pool.discard, List.mem_filter, decide_eq_true_eq, hk]
    by_cases he : k = id <;> simp [he]
  room := by
    have hle : (p.discard id).active.length ≤ p.active.length := List.length_filter_le _ _
    have hroom := h.room
    have hp : (p.discard id).pending = p.pending := rfl
    omega
  shut hc := by
    obtain ⟨hi, ha⟩ := h.shut hc
    simp [Pool.discard, without, hi, ha]

/-- The session on top of the idle stack is leased. -/
theorem lend (h : InOrder limit p) {id : SessionId} {rest : List SessionId} {t t' : Tracked}
    (hidle : p.idle = id :: rest) (ht : p.find? id = some t) (huse : t'.use = .leased) :
    InOrder limit { p with idle := rest, active := changed id t' p.active } where
  names_nodup := by
    rw [names, map_fst_changed]
    exact h.names_nodup
  idle_nodup := (List.nodup_cons.mp (hidle ▸ h.idle_nodup)).2
  mem_idle k := by
    have hk := h.mem_idle k
    rw [hidle, List.mem_cons] at hk
    -- the stack holds a session once, so the leased one does not lie below as well
    have hid : id ∉ rest := (List.nodup_cons.mp (hidle ▸ h.idle_nodup)).1
    simp only [find?, lookup_changed] at ht hk ⊢
    by_cases he : k = id
    · subst he
      simp [hid, ht, huse]
    · rw [if_neg he]
      simpa [he] using hk
  room := by
    rw [length_changed]
    exact h.room
  shut hc := by
    rw [h.not_closed ht] at hc
    cases hc

/-- A leased session comes back onto the idle stack. -/
theorem takeBack (h : InOrder limit p) {id : SessionId} {t t' : Tracked}
    (ht : p.find? id = some t) (huse : t.use = .leased) (huse' : t'.use = .idle) :
    InOrder limit { p with idle := id :: p.idle, active := changed id t' p.active } where
  names_nodup := by
    rw [names, map_fst_changed]
    exact h.names_nodup
  idle_nodup := by
    refine List.nodup_cons.mpr ⟨fun hin => ?_, h.idle_nodup⟩
    obtain ⟨u, hu, hidle⟩ := (h.mem_idle id).mp hin
    rw [ht, Option.some.injEq] at hu
    rw [← hu, huse] at hidle
    cases hidle
  mem_idle k := by
    have hk := h.mem_idle k
    simp only [find?, lookup_changed, List.mem_cons] at ht hk ⊢
    by_cases he : k = id
    · subst he
      simp [ht, huse']
    · rw [if_neg he]
      simpa [he] using hk
  room := by
    rw [length_changed]
    exact h.room
  shut hc := by
    rw [h.not_closed ht] at hc
    cases hc

/-- A place is kept for a creation. -/
theorem reserve (h : InOrder limit p) (hroom : p.active.length + p.pending < limit) :
    InOrder limit { p with pending := p.pending + 1 } :=
  ⟨h.names_nodup, h.idle_nodup, h.mem_idle, Nat.succ_le_of_lt hroom, h.shut⟩

theorem releasePending (h : InOrder limit p) : InOrder limit p.releasePending :=
  ⟨h.names_nodup, h.idle_nodup, h.mem_idle,
    Nat.le_trans (Nat.add_le_add_left (Nat.sub_le _ _) _) h.room, h.shut⟩

/-- A session that was never seen before is registered in the place kept for it. -/
theorem register (h : InOrder limit p) {s : SessionInfo} {flag : FlagNo} {now : Nat}
    (hroom : p.active.length + p.pending < limit) (hopen : p.closed = false)
    (hnew : s.id ∉ p.names) : InOrder limit (p.register s flag now) where
  names_nodup := by
    rw [names_register hnew]
    exact List.nodup_cons.mpr ⟨hnew, h.names_nodup⟩
  idle_nodup := h.idle_nodup
  mem_idle k := by
    have hk := h.mem_idle k
    rw [find?_register]
    by_cases he : k = s.id
    · -- a session that is new lies neither on the stack nor in the table
      have hnone : p.find? k = none := find?_eq_none_iff.mpr (he ▸ hnew)
      rw [hnone] at hk
      simp [he] at hk ⊢
      exact hk
    · rw [if_neg he]
      exact hk
  room := by
    have hle : (without s.id p.active).length ≤ p.active.length := List.length_filter_le _ _
    simp only [Pool.register, List.length_cons]
    omega
  shut hc := by
    rw [show (p.register s flag now).closed = p.closed from rfl, hopen] at hc
    cases hc

end InOrder

/-! ## Occupancy -/

theorem length_le_countP {γ : Type} {p q r : γ → Bool} (h : ∀ a, p a || q a || r a) (l : List γ) :
    l.length ≤ l.countP p + l.countP q + l.countP r := by
  induction l with
  | nil => exact Nat.le_refl _
  | cons a l ih =>
    have ha := h a
    simp only [List.length_cons, List.countP_cons]
    cases hp : p a <;> cases hq : q a <;> cases hr : r a <;> simp [hp, hq, hr] at ha ⊢ <;> omega

theorem countP_le_length {γ : Type} {p q : γ → Bool} (h : ∀ a, ¬ (p a && q a)) (l : List γ) :
    l.countP p + l.countP q ≤ l.length := by
  induction l with
  | nil => exact Nat.le_refl _
  | cons a l ih =>
    have ha := h a
    simp only [List.length_cons, List.countP_cons]
    cases hp : p a <;> cases hq : q a <;> simp [hp, hq] at ha ⊢ <;> omega

/-- No more sessions are tracked as idle than lie on the idle stack. -/
theorem InOrder.countP_idle_le {limit : Nat} {p : Pool} (h : InOrder limit p) :
    p.active.countP (fun x => x.2.use = .idle) ≤ p.idle.length := by
  have hnd : ((p.active.filter fun x => x.2.use = .idle).map Prod.fst).Nodup :=
    h.names_nodup.sublist (List.filter_sublist.map _)
  have hsub : (p.active.filter fun x => x.2.use = .idle).map Prod.fst ⊆ p.idle := by
    intro id hid
    obtain ⟨⟨k, t⟩, hx, rfl⟩ := List.mem_map.mp hid
    obtain ⟨hin, huse⟩ := List.mem_filter.mp hx
    exact (h.mem_idle k).mpr ⟨t, lookup_of_mem h.names_nodup hin, by simpa using huse⟩
  rw [List.countP_eq_length_filter, ← List.length_map (f := Prod.fst)]
  exact (hnd.subperm hsub).length_le

/-- The occupancy of a pool whose tables are in order adds up. -/
theorem InOrder.stats_le {limit : Nat} {p : Pool} (h : InOrder limit p) (alive : FlagNo → Bool)
    (now : Nat) :
    (p.stats limit alive now).active + (p.stats limit alive now).pending ≤
        (p.stats limit alive now).limit ∧
      (p.stats limit alive now).leased + (p.stats limit alive now).dead ≤
        (p.stats limit alive now).active ∧
      (p.stats limit alive now).active ≤
        (p.stats limit alive now).idle + (p.stats limit alive now).leased
          + (p.stats limit alive now).dead := by
  refine ⟨h.room, countP_le_length (fun x => ?_) p.active, ?_⟩
  · cases halive : alive x.2.flag <;> simp [halive]
  · have hidle := h.countP_idle_le
    have hall : p.active.length ≤ p.active.countP (fun x => decide (x.2.use = .idle))
        + (p.stats limit alive now).leased + (p.stats limit alive now).dead := by
      refine length_le_countP (fun x => ?_) p.active
      cases halive : alive x.2.flag <;> cases huse : x.2.use <;> simp [halive, huse]
    exact hall.trans (Nat.add_le_add_right (Nat.add_le_add_right hidle _) _)

/-! ## Leases -/

/-- A session is known under a flag, as a tracked session or through a lease. -/
def Bears (p : Pool) (leases : List Handle) (id : SessionId) (flag : FlagNo) : Prop :=
  (∃ t, p.find? id = some t ∧ t.flag = flag) ∨ ∃ h ∈ leases, h.id = id ∧ h.flag = flag

/-- The tables stand for the given leases. -/
structure Lent (p : Pool) (leases : List Handle) : Prop where
  /-- No two leases are on one session. -/
  ids_nodup : (leases.map (·.id)).Nodup
  /-- A session tracked as leased has a lease. -/
  exists_lease : ∀ id t, p.find? id = some t → t.use = .leased → ∃ h ∈ leases, h.id = id
  /-- A tracked session on which there is a lease is tracked as leased. -/
  use_of_lease : ∀ h ∈ leases, ∀ t, p.find? h.id = some t → t.use = .leased
  /-- Each session has a flag of its own. -/
  same_iff : ∀ id flag id' flag', p.Bears leases id flag → p.Bears leases id' flag' →
    (id = id' ↔ flag = flag')

theorem Bears.mono {p q : Pool} {leases leases' : List Handle} {id : SessionId} {flag : FlagNo}
    (hfind : ∀ k t, q.find? k = some t → ∃ u, p.find? k = some u ∧ u.flag = t.flag)
    (hleases : ∀ h ∈ leases', h ∈ leases ∨ ∃ t, p.find? h.id = some t ∧ t.flag = h.flag)
    (h : q.Bears leases' id flag) : p.Bears leases id flag := by
  rcases h with ⟨t, ht, rfl⟩ | ⟨l, hl, rfl, rfl⟩
  · exact Or.inl (hfind id t ht)
  · rcases hleases l hl with hold | htracked
    · exact Or.inr ⟨l, hold, rfl, rfl⟩
    · exact Or.inl htracked

theorem lent_fresh : Lent fresh [] :=
  ⟨List.nodup_nil, by simp [fresh, find?], by simp, by simp [Bears, fresh, find?]⟩

namespace Lent

variable {p : Pool} {leases : List Handle}

/-- Sessions keep flags of their own as long as no new flags come up. -/
theorem same_iff_of_mono (h : Lent p leases) {q : Pool} {leases' : List Handle}
    (hfind : ∀ k t, q.find? k = some t → ∃ u, p.find? k = some u ∧ u.flag = t.flag)
    (hleases : ∀ l ∈ leases', l ∈ leases ∨ ∃ t, p.find? l.id = some t ∧ t.flag = l.flag) :
    ∀ id flag id' flag', q.Bears leases' id flag → q.Bears leases' id' flag' →
      (id = id' ↔ flag = flag') := by
  intro id flag id' flag' hb hb'
  exact h.same_iff id flag id' flag' (hb.mono hfind hleases) (hb'.mono hfind hleases)

/-- Only the flags, the uses and the names of tracked sessions matter. -/
theorem of_find? {q : Pool} (h : Lent p leases) (hfind : ∀ k, q.find? k = p.find? k) :
    Lent q leases := by
  refine ⟨h.ids_nodup, ?_, ?_, ?_⟩
  · intro id t ht
    exact h.exists_lease id t (hfind id ▸ ht)
  · intro l hl t ht
    exact h.use_of_lease l hl t (hfind l.id ▸ ht)
  · exact h.same_iff_of_mono (fun k t ht => ⟨t, hfind k ▸ ht, rfl⟩) fun _ => Or.inl

theorem perm {leases' : List Handle} (h : Lent p leases) (hperm : leases.Perm leases') :
    Lent p leases' := by
  have hback : ∀ l ∈ leases', l ∈ leases := fun l hl => hperm.mem_iff.mpr hl
  refine ⟨(hperm.map _).nodup_iff.mp h.ids_nodup, ?_, ?_, ?_⟩
  · intro id t ht huse
    obtain ⟨l, hl, hid⟩ := h.exists_lease id t ht huse
    exact ⟨l, hperm.mem_iff.mp hl, hid⟩
  · intro l hl
    exact h.use_of_lease l (hback l hl)
  · exact h.same_iff_of_mono (fun _ t ht => ⟨t, ht, rfl⟩) fun l hl => Or.inl (hback l hl)

/-- A tracked session may leave: its lease stays outstanding, on a session that is not tracked. -/
theorem discard (h : Lent p leases) (id : SessionId) : Lent (p.discard id) leases := by
  refine ⟨h.ids_nodup, ?_, ?_, ?_⟩
  · intro k t ht
    exact h.exists_lease k t (find?_of_find?_discard ht).2
  · intro l hl t ht
    exact h.use_of_lease l hl t (find?_of_find?_discard ht).2
  · exact h.same_iff_of_mono (fun k t ht => ⟨t, (find?_of_find?_discard ht).2, rfl⟩)
      fun _ => Or.inl

/-- A lease on a session that is not tracked can be given up. -/
theorem forget {l : Handle} (h : Lent p (l :: leases)) (hnone : p.find? l.id = none) :
    Lent p leases := by
  refine ⟨(List.nodup_cons.mp h.ids_nodup).2, ?_, ?_, ?_⟩
  · intro id t ht huse
    obtain ⟨k, hk, hid⟩ := h.exists_lease id t ht huse
    rcases List.mem_cons.mp hk with rfl | hk
    · rw [hid, ht] at hnone
      cases hnone
    · exact ⟨k, hk, hid⟩
  · intro k hk
    exact h.use_of_lease k (List.mem_cons_of_mem _ hk)
  · exact h.same_iff_of_mono (fun _ t ht => ⟨t, ht, rfl⟩)
      fun k hk => Or.inl (List.mem_cons_of_mem _ hk)

/-- A lease on an idle session is new, in its session and in its flag. -/
theorem lend (h : Lent p leases) {id : SessionId} {rest : List SessionId} {t t' : Tracked}
    (ht : p.find? id = some t) (hidle : t.use = .idle) (huse : t'.use = .leased)
    (hflag : t'.flag = t.flag) (node : Int) :
    Lent { p with idle := rest, active := changed id t' p.active } (⟨id, node, t'.flag⟩ :: leases) := by
  have hfind := find?_changed ht rest t'
  -- nobody holds a lease on an idle session
  have hfree : ∀ l ∈ leases, l.id ≠ id := by
    intro l hl he
    have := h.use_of_lease l hl t (he ▸ ht)
    rw [hidle] at this
    cases this
  have hleases : ∀ l ∈ (⟨id, node, t'.flag⟩ :: leases : List Handle),
      l ∈ leases ∨ ∃ u, p.find? l.id = some u ∧ u.flag = l.flag := by
    intro l hl
    rcases List.mem_cons.mp hl with rfl | hl
    · exact Or.inr ⟨t, ht, hflag.symm⟩
    · exact Or.inl hl
  refine ⟨?_, ?_, ?_, ?_⟩
  · rw [List.map_cons, List.nodup_cons]
    refine ⟨fun hin => ?_, h.ids_nodup⟩
    obtain ⟨l, hl, hid⟩ := List.mem_map.mp hin
    exact hfree l hl hid
  · intro k u hu hleased
    rw [hfind] at hu
    split at hu
    · rename_i he
      exact ⟨_, List.mem_cons_self, he.symm⟩
    · obtain ⟨l, hl, hid⟩ := h.exists_lease k u hu hleased
      exact ⟨l, List.mem_cons_of_mem _ hl, hid⟩
  · intro l hl u hu
    rw [hfind] at hu
    rcases List.mem_cons.mp hl with rfl | hl
    · rw [if_pos rfl, Option.some.injEq] at hu
      rw [← hu, huse]
    · rw [if_neg (hfree l hl)] at hu
      exact h.use_of_lease l hl u hu
  · exact h.same_iff_of_mono (fun _ _ => flag_of_find?_changed ht hflag) hleases

/-- A lease comes back together with its session. -/
theorem takeBack {l : Handle} (h : Lent p (l :: leases)) {t t' : Tracked}
    (ht : p.find? l.id = some t) (huse : t'.use = .idle) (hflag : t'.flag = t.flag)
    (idle : List SessionId) :
    Lent { p with idle := idle, active := changed l.id t' p.active } leases := by
  have hfind := find?_changed ht idle t'
  have hother : ∀ k ∈ leases, k.id ≠ l.id := by
    intro k hk he
    exact (List.nodup_cons.mp h.ids_nodup).1 (List.mem_map.mpr ⟨k, hk, he⟩)
  refine ⟨(List.nodup_cons.mp h.ids_nodup).2, ?_, ?_, ?_⟩
  · intro k u hu hleased
    rw [hfind] at hu
    split at hu
    · cases hu
      rw [huse] at hleased
      cases hleased
    · rename_i hne
      obtain ⟨k', hk', hid⟩ := h.exists_lease k u hu hleased
      rcases List.mem_cons.mp hk' with rfl | hk'
      · exact absurd hid.symm hne
      · exact ⟨k', hk', hid⟩
  · intro k hk u hu
    rw [hfind, if_neg (hother k hk)] at hu
    exact h.use_of_lease k (List.mem_cons_of_mem _ hk) u hu
  · exact h.same_iff_of_mono (fun _ _ => flag_of_find?_changed ht hflag)
      fun m hm => Or.inl (List.mem_cons_of_mem _ hm)

/-- A session that was never seen before is registered and leased, under a flag of its own. -/
theorem register (h : Lent p leases) {s : SessionInfo} {flag : FlagNo} {now : Nat}
    (hnew : ∀ f, ¬ p.Bears leases s.id f) (hflag : ∀ id, ¬ p.Bears leases id flag) :
    Lent (p.register s flag now) (⟨s.id, s.node, flag⟩ :: leases) := by
  have hfind := find?_register p s flag now
  have hother : ∀ k ∈ leases, k.id ≠ s.id := by
    intro k hk he
    exact hnew k.flag (Or.inr ⟨k, hk, he, rfl⟩)
  -- a session bears a flag now exactly if it is the new one or did so before
  have hcases : ∀ k f, (p.register s flag now).Bears (⟨s.id, s.node, flag⟩ :: leases) k f →
      (k = s.id ∧ f = flag) ∨ p.Bears leases k f := by
    rintro k f (⟨t, ht, rfl⟩ | ⟨l, hl, rfl, rfl⟩)
    · rw [hfind] at ht
      split at ht
      · rename_i he
        cases ht
        exact Or.inl ⟨he, rfl⟩
      · exact Or.inr (Or.inl ⟨t, ht, rfl⟩)
    · rcases List.mem_cons.mp hl with rfl | hl
      · exact Or.inl ⟨rfl, rfl⟩
      · exact Or.inr (Or.inr ⟨l, hl, rfl, rfl⟩)
  refine ⟨?_, ?_, ?_, ?_⟩
  · rw [List.map_cons, List.nodup_cons]
    refine ⟨fun hin => ?_, h.ids_nodup⟩
    obtain ⟨l, hl, hid⟩ := List.mem_map.mp hin
    exact hother l hl hid
  · intro k t ht hleased
    rw [hfind] at ht
    split at ht
    · rename_i he
      exact ⟨_, List.mem_cons_self, he.symm⟩
    · obtain ⟨l, hl, hid⟩ := h.exists_lease k t ht hleased
      exact ⟨l, List.mem_cons_of_mem _ hl, hid⟩
  · intro l hl t ht
    rw [hfind] at ht
    rcases List.mem_cons.mp hl with rfl | hl
    · rw [if_pos rfl, Option.some.injEq] at ht
      rw [← ht]
    · rw [if_neg (hother l hl)] at ht
      exact h.use_of_lease l hl t ht
  · intro k f k' f' hb hb'
    rcases hcases k f hb with ⟨hk, hf⟩ | hold <;> rcases hcases k' f' hb' with ⟨hk', hf'⟩ | hold'
    · simp [hk, hf, hk', hf']
    · subst hk hf
      exact ⟨fun he => absurd (he ▸ hold') (hnew f'), fun he => absurd (he ▸ hold') (hflag k')⟩
    · subst hk' hf'
      exact ⟨fun he => absurd (he ▸ hold) (hnew f), fun he => absurd (he ▸ hold) (hflag k)⟩
    · exact h.same_iff k f k' f' hold hold'

end Lent

end Pool

end PooledSessions
