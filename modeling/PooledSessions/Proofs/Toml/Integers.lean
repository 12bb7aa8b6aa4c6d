import PooledSessions.Toml.Document

/-!
# Integers in a settings file

The reader refuses an integer that does not fit 64 bits with a sign, and nothing that is done with a
value afterwards makes another integer of it.  So whatever tree a text is read as, all integers in it
fit, however deep they stand.
-/

namespace PooledSessions.Toml

/-- Every integer in an item fits 64 bits with a sign. -/
inductive Item.Stored : Item → Prop
  /-- A text holds no integer. -/
  | text (s : String) : Stored (.text s)
  /-- The integer itself fits. -/
  | integer {n : Int} (hfits : Int64.minValue.toInt ≤ n ∧ n ≤ Int64.maxValue.toInt) :
    Stored (.integer n)
  /-- A number of another kind holds no integer. -/
  | float (x : Binary64) : Stored (.float x)
  /-- A truth value holds no integer. -/
  | flag (b : Bool) : Stored (.flag b)
  /-- A moment holds no integer. -/
  | moment : Stored .moment
  /-- The integers between square brackets fit. -/
  | array {items : List Item} (hinside : ∀ i ∈ items, Stored i) : Stored (.array items)
  /-- The integers under the keys of a table fit. -/
  | table {origin : Origin} {es : Entries} (hinside : ∀ e ∈ es, Stored e.2) : Stored (.table origin es)
  /-- The integers in every one of several tables fit. -/
  | tables {ts : List Entries} (hinside : ∀ es ∈ ts, ∀ e ∈ es, Stored e.2) : Stored (.tables ts)

/-- Every integer in a tree of tables fits 64 bits with a sign. -/
def Entries.Stored (es : Entries) : Prop := ∀ e ∈ es, e.2.Stored

/-! ## Values without parts -/

theorem fits_of_fitting? {n m : Int} (h : fitting? n = some m) :
    Int64.minValue.toInt ≤ m ∧ m ≤ Int64.maxValue.toInt := by
  unfold fitting? at h
  split at h
  next hfits =>
    cases h
    exact hfits
  next => cases h

/-- An integer that is read fits. -/
theorem fits_of_integer? {cs r : List Char} {n : Int} (h : integer? cs = some (n, r)) :
    Int64.minValue.toInt ≤ n ∧ n ≤ Int64.maxValue.toInt := by
  unfold integer? at h
  simp only at h
  -- Whatever the base is, the number passes `fitting?` at the end.
  split at h <;>
    simp only [Option.bind_eq_bind, Option.bind_eq_some_iff, Option.pure_def, Option.some.injEq,
      Prod.mk.injEq, Prod.exists] at h
  · obtain ⟨_, _, _, m, hfits, rfl, -⟩ := h
    exact fits_of_fitting? hfits
  · obtain ⟨_, _, _, m, hfits, rfl, -⟩ := h
    exact fits_of_fitting? hfits
  · obtain ⟨_, _, _, m, hfits, rfl, -⟩ := h
    exact fits_of_fitting? hfits
  · obtain ⟨_, _, _, m, hfits, rfl, -⟩ := h
    exact fits_of_fitting? hfits

theorem stored_of_number? {cs r : List Char} {v : Item} (h : number? cs = some (v, r)) : v.Stored := by
  unfold number? at h
  split at h
  next =>
    cases h
    exact .moment
  next =>
    split at h
    next =>
      cases h
      exact .float _
    next =>
      rw [Option.map_eq_some_iff] at h
      obtain ⟨⟨n, r⟩, hread, hsame⟩ := h
      cases hsame
      exact .integer (fits_of_integer? hread)

theorem stored_of_scalar? {cs r : List Char} {v : Item} (h : scalar? cs = some (v, r)) : v.Stored := by
  unfold scalar? at h
  split at h
  next =>
    cases h
    exact .flag _
  next =>
    cases h
    exact .flag _
  next =>
    rw [Option.map_eq_some_iff] at h
    obtain ⟨_, -, hsame⟩ := h
    cases hsame
    exact .text _
  next =>
    rw [Option.map_eq_some_iff] at h
    obtain ⟨_, -, hsame⟩ := h
    cases hsame
    exact .text _
  next => exact stored_of_number? h

/-! ## Trees of tables -/

namespace Entries

variable {es es' : Entries} {k : String} {item : Item}

theorem Stored.nil : Stored [] := by
  intro e he
  cases he

theorem Stored.concat (h : es.Stored) (hnew : item.Stored) : Stored (es ++ [(k, item)]) := by
  intro e he
  rw [List.mem_append, List.mem_singleton] at he
  rcases he with he | rfl
  · exact h e he
  · exact hnew

theorem Stored.put (h : es.Stored) (hnew : item.Stored) : (es.put k item).Stored := by
  intro e he
  obtain ⟨f, hf, rfl⟩ := List.mem_map.mp he
  split
  · exact hnew
  · exact h f hf

theorem Stored.lookup (h : es.Stored) (hfound : es.lookup k = some item) : item.Stored := by
  obtain ⟨front, back, rfl, -⟩ := List.lookup_eq_some_iff.mp hfound
  exact h (k, item) (by simp)

theorem Stored.of_table {origin : Origin} (h : (Item.table origin es).Stored) : es.Stored := by
  cases h with
  | table hinside => exact hinside

/-- The last of several tables can be changed without harm to the others. -/
theorem Stored.of_tables {ts : List Entries} (h : (Item.tables ts).Stored) :
    (∀ es ∈ ts.getLast?, es.Stored)
      ∧ ∀ last : Entries, last.Stored → (Item.tables (ts.dropLast ++ [last])).Stored := by
  cases h with
  | tables hinside =>
    refine ⟨fun es hes => hinside es (List.mem_of_getLast? hes), fun last hstored => .tables ?_⟩
    intro es hes
    rw [List.mem_append, List.mem_singleton] at hes
    rcases hes with hes | rfl
    · exact hinside es ((List.dropLast_sublist ts).subset hes)
    · exact hstored

theorem Stored.assign {name : String} (hnew : item.Stored) (path : List String) (h : es.Stored)
    (hdone : Entries.assign name item path es = some es') : es'.Stored := by
  -- By induction on the path: each step makes a table, enters one, or enters the last of several.
  induction path generalizing es es' with
  | nil =>
    unfold Entries.assign at hdone
    split at hdone
    · cases hdone
    · cases hdone
      exact h.concat hnew
  | cons k path ih =>
    unfold Entries.assign at hdone
    cases hfound : es.lookup k with
    | none =>
      simp only [hfound, Option.map_eq_some_iff] at hdone
      obtain ⟨inner, hinside, rfl⟩ := hdone
      exact h.concat (.table (ih .nil hinside))
    | some there =>
      have hstored := h.lookup hfound
      simp only [hfound] at hdone
      split at hdone
      next hnone => cases hnone
      next inner hdotted =>
        cases hdotted
        rw [Option.map_eq_some_iff] at hdone
        obtain ⟨inner', hinside, rfl⟩ := hdone
        exact h.put (.table (ih (of_table hstored) hinside))
      next inner himplied =>
        cases himplied
        split at hdone
        · cases hdone
        · rw [Option.map_eq_some_iff] at hdone
          obtain ⟨inner', hinside, rfl⟩ := hdone
          exact h.put (.table (ih (of_table hstored) hinside))
      next ts hseveral =>
        cases hseveral
        split at hdone
        · cases hdone
        · simp only [Option.bind_eq_bind, Option.bind_eq_some_iff, Option.pure_def,
            Option.some.injEq] at hdone
          obtain ⟨last, hold, last', hinside, rfl⟩ := hdone
          exact h.put ((of_tables hstored).2 last' (ih ((of_tables hstored).1 last hold) hinside))
      next => cases hdone

theorem Stored.descend {change : Entries → Option Entries}
    (hkept : ∀ es es' : Entries, es.Stored → change es = some es' → es'.Stored) (h : es.Stored)
    (hdone : es.descend k change = some es') : es'.Stored := by
  unfold Entries.descend at hdone
  split at hdone
  next =>
    rw [Option.map_eq_some_iff] at hdone
    obtain ⟨inner, hinside, rfl⟩ := hdone
    exact h.concat (.table (hkept _ _ .nil hinside))
  next => cases hdone
  next origin inner _ hfound =>
    rw [Option.map_eq_some_iff] at hdone
    obtain ⟨inner', hinside, rfl⟩ := hdone
    exact h.put (.table (hkept _ _ (of_table (h.lookup hfound)) hinside))
  next ts hfound =>
    have hstored := of_tables (h.lookup hfound)
    simp only [Option.bind_eq_bind, Option.bind_eq_some_iff, Option.pure_def,
      Option.some.injEq] at hdone
    obtain ⟨last, hold, last', hinside, rfl⟩ := hdone
    exact h.put (hstored.2 last' (hkept _ _ (hstored.1 last hold) hinside))
  next => cases hdone

/-- A change at the end of a path keeps the integers small if it does so where it happens. -/
theorem Stored.within {change : Entries → Option Entries}
    (hkept : ∀ es es' : Entries, es.Stored → change es = some es' → es'.Stored) (path : List String)
    (h : es.Stored) (hdone : Entries.within change path es = some es') : es'.Stored := by
  induction path generalizing es es' with
  | nil => exact hkept _ _ h hdone
  | cons k path ih => exact h.descend (fun _ _ => ih) hdone

theorem Stored.openTable (h : es.Stored) (hdone : openTable k es = some es') : es'.Stored := by
  unfold Entries.openTable at hdone
  split at hdone
  next =>
    cases hdone
    exact h.concat (.table Stored.nil)
  next inner hfound =>
    cases hdone
    exact h.put (.table (of_table (h.lookup hfound)))
  next => cases hdone

theorem Stored.openElement (h : es.Stored) (hdone : openElement k es = some es') : es'.Stored := by
  unfold Entries.openElement at hdone
  split at hdone
  next =>
    cases hdone
    refine h.concat (.tables ?_)
    intro es hes
    rw [List.mem_singleton] at hes
    exact hes ▸ Stored.nil
  next ts hfound =>
    cases hdone
    refine h.put (.tables ?_)
    intro es hes
    rw [List.mem_append, List.mem_singleton] at hes
    rcases hes with hes | rfl
    · cases h.lookup hfound with
      | tables hinside => exact hinside es hes
    · exact Stored.nil
  next => cases hdone

end Entries

/-! ## Values with parts -/

section

variable {item : List Char → Option (Item × List Char)}

theorem stored_of_elements (hsmall : ∀ cs v r, item cs = some (v, r) → v.Stored) {n : Nat}
    {cs r : List Char} {vs : List Item} (h : elements item n cs = some (vs, r)) :
    ∀ v ∈ vs, v.Stored := by
  induction n generalizing cs r vs with
  | zero => cases h
  | succ n ih =>
    unfold elements at h
    simp only [Option.bind_eq_bind, Option.bind_eq_some_iff] at h
    obtain ⟨cs', -, h⟩ := h
    split at h
    next =>
      cases h
      intro v hv
      cases hv
    next =>
      simp only [Option.bind_eq_some_iff] at h
      obtain ⟨⟨first, r'⟩, hread, cs'', -, h⟩ := h
      split at h
      next =>
        cases h
        simpa using hsmall _ _ _ hread
      next =>
        simp only [Option.bind_eq_some_iff, Option.pure_def, Option.some.injEq, Prod.mk.injEq] at h
        obtain ⟨⟨others, r''⟩, hrest, rfl, -⟩ := h
        simpa using ⟨hsmall _ _ _ hread, ih hrest⟩
      next => cases h

theorem stored_of_members (hsmall : ∀ cs v r, item cs = some (v, r) → v.Stored) {n : Nat}
    {cs r : List Char} {ms : List (Key × Item)} (h : members item n cs = some (ms, r)) :
    ∀ m ∈ ms, m.2.Stored := by
  induction n generalizing cs r ms with
  | zero => cases h
  | succ n ih =>
    unfold members at h
    simp only [Option.bind_eq_bind, Option.bind_eq_some_iff] at h
    obtain ⟨⟨k, r'⟩, -, cs', -, ⟨v, r''⟩, hread, h⟩ := h
    split at h
    next =>
      cases h
      simpa using hsmall _ _ _ hread
    next =>
      simp only [Option.bind_eq_some_iff, Option.pure_def, Option.some.injEq, Prod.mk.injEq] at h
      obtain ⟨⟨others, r'''⟩, hrest, rfl, -⟩ := h
      simpa using ⟨hsmall _ _ _ hread, fun k v hkv => ih hrest (k, v) hkv⟩
    next => cases h

end

theorem Entries.Stored.assignAll {ms : List (Key × Item)} (hsmall : ∀ m ∈ ms, m.2.Stored)
    {es es' : Entries} (h : es.Stored)
    (hdone : ms.foldlM (fun es m => Entries.assign m.1.name m.2 m.1.parents es) es = some es') :
    es'.Stored := by
  induction ms generalizing es with
  | nil =>
    cases hdone
    exact h
  | cons m ms ih =>
    simp only [List.foldlM_cons, Option.bind_eq_bind, Option.bind_eq_some_iff] at hdone
    obtain ⟨next, hassigned, hdone⟩ := hdone
    exact ih (fun m hm => hsmall m (by simp [hm])) (h.assign (hsmall m (by simp)) _ hassigned) hdone

theorem stored_of_inlineTable? {ms : List (Key × Item)} {v : Item} (hsmall : ∀ m ∈ ms, m.2.Stored)
    (h : inlineTable? ms = some v) : v.Stored := by
  unfold inlineTable? at h
  rw [Option.map_eq_some_iff] at h
  obtain ⟨es, hmade, rfl⟩ := h
  exact .table (Entries.Stored.nil.assignAll hsmall hmade)

/-- Every integer in a value that is read fits. -/
theorem stored_of_value? {depth : Nat} {cs r : List Char} {v : Item}
    (h : value? depth cs = some (v, r)) : v.Stored := by
  induction depth generalizing cs v r with
  | zero => exact stored_of_scalar? h
  | succ depth ih =>
    unfold value? at h
    split at h
    next =>
      rw [Option.map_eq_some_iff] at h
      obtain ⟨⟨items, r'⟩, hread, hsame⟩ := h
      cases hsame
      exact .array (stored_of_elements (fun _ _ _ => ih) hread)
    next =>
      split at h
      next =>
        cases h
        exact .table Entries.Stored.nil
      next =>
        simp only [Option.bind_eq_bind, Option.bind_eq_some_iff, Option.pure_def, Option.some.injEq,
          Prod.mk.injEq] at h
        obtain ⟨⟨ms, r'⟩, hread, v, hmade, rfl, -⟩ := h
        exact stored_of_inlineTable? (stored_of_members (fun _ _ _ => ih) hread) hmade
    next => exact stored_of_scalar? h

/-! ## Statements -/

/-- Every integer that a statement gives fits. -/
def Statement.Stored : Statement → Prop
  | header _ => True
  | element _ => True
  | entry _ v => v.Stored

theorem stored_of_statement? {cs r : List Char} {s : Statement} (h : statement? cs = some (s, r)) :
    s.Stored := by
  unfold statement? at h
  split at h <;>
    simp only [Option.bind_eq_bind, Option.bind_eq_some_iff, Option.pure_def, Option.some.injEq,
      Prod.mk.injEq] at h
  next =>
    obtain ⟨⟨k, r'⟩, -, _, -, _, -, rfl, -⟩ := h
    trivial
  next =>
    obtain ⟨⟨k, r'⟩, -, _, -, rfl, -⟩ := h
    trivial
  next =>
    obtain ⟨⟨k, r'⟩, -, _, -, ⟨v, r''⟩, hread, rfl, -⟩ := h
    exact stored_of_value? hread

theorem stored_of_statements {n : Nat} {cs : List Char} {ss : List Statement}
    (h : statements n cs = some ss) : ∀ s ∈ ss, s.Stored := by
  induction n generalizing cs ss with
  | zero => cases h
  | succ n ih =>
    unfold statements at h
    split at h
    next =>
      cases h
      intro s hs
      cases hs
    next =>
      split at h
      · rw [Option.bind_eq_some_iff] at h
        obtain ⟨_, -, h⟩ := h
        exact ih h
      · simp only [Option.bind_eq_bind, Option.bind_eq_some_iff, Option.pure_def,
          Option.some.injEq] at h
        obtain ⟨⟨s, r⟩, hread, _, -, others, hrest, rfl⟩ := h
        simpa using ⟨stored_of_statement? hread, ih hrest⟩

namespace Document

theorem stored_of_perform {d d' : Document} {s : Statement} (h : d.root.Stored) (hsmall : s.Stored)
    (hdone : perform d s = some d') : d'.root.Stored := by
  cases s with
  | header k =>
    obtain ⟨root, hmade, rfl⟩ := Option.map_eq_some_iff.mp hdone
    exact h.within (fun _ _ hstored => hstored.openTable) _ hmade
  | element k =>
    obtain ⟨root, hmade, rfl⟩ := Option.map_eq_some_iff.mp hdone
    exact h.within (fun _ _ hstored => hstored.openElement) _ hmade
  | entry k v =>
    obtain ⟨root, hmade, rfl⟩ := Option.map_eq_some_iff.mp hdone
    exact h.within (fun _ _ hstored => hstored.assign hsmall _) _ hmade

theorem stored_of_foldlM {d d' : Document} {ss : List Statement} (h : d.root.Stored)
    (hsmall : ∀ s ∈ ss, s.Stored) (hdone : ss.foldlM perform d = some d') : d'.root.Stored := by
  induction ss generalizing d with
  | nil =>
    cases hdone
    exact h
  | cons s ss ih =>
    simp only [List.foldlM_cons, Option.bind_eq_bind, Option.bind_eq_some_iff] at hdone
    obtain ⟨next, hstep, hdone⟩ := hdone
    exact ih (stored_of_perform h (hsmall s (by simp)) hstep) (fun s hs => hsmall s (by simp [hs])) hdone

/-- No integer in a settings file is too large.  Whatever a text is read as, every integer in the
tree fits 64 bits with a sign. -/
theorem stored_of_ofText? {s : String} {es : Entries} (h : ofText? s = some es) : es.Stored := by
  unfold ofText? at h
  simp only [Option.bind_eq_bind, Option.bind_eq_some_iff, Option.pure_def, Option.some.injEq] at h
  obtain ⟨ss, hcut, d, hdone, rfl⟩ := h
  exact stored_of_foldlM (d := empty) .nil (stored_of_statements hcut) hdone

end Document

end PooledSessions.Toml
