import PooledSessions.Files.Tree

/-!
# What changes to files keep

A change to a tree of files takes no directory away: writing puts a text only where no directory is, and
making directories only adds some.  So a path that can be followed before a change can be followed after
it, which has two consequences.  What has been written can be read, and directories that have been made
need not be made again.
-/

namespace PooledSessions.Files

/-! ## What stands at a place after a change -/

variable {f f' f'' : Files} {p q : Place} {e : FileEntry}

theorem lookup_put_self (h : p ≠ []) : entry? (f.put p e) p = some e := by
  unfold entry? put
  simp [h]

theorem lookup_filter_ne_place (h : q ≠ p) (xs : List (Place × FileEntry)) :
    (xs.filter (·.1 ≠ p)).lookup q = xs.lookup q := by
  induction xs with
  | nil => rfl
  | cons x xs ih =>
    obtain ⟨r, e⟩ := x
    rw [List.filter_cons, List.lookup_cons]
    by_cases hsame : r = p
    · have hother : (q == r) = false := beq_false_of_ne (hsame ▸ h)
      rw [if_neg (by simpa using hsame), hother, ih]
    · rw [if_pos (by simpa using hsame), List.lookup_cons, ih]

theorem lookup_put_of_ne (h : q ≠ p) : entry? (f.put p e) q = f.entry? q := by
  have hapart : (q == p) = false := beq_false_of_ne h
  unfold entry? put
  simp only [List.lookup_cons, hapart, lookup_filter_ne_place h]

/-- Files in which every directory of others still is one. -/
structure Keeps (f f' : Files) : Prop where
  /-- The working directory is the same. -/
  here : f'.here = f.here
  /-- Directories stay. -/
  directory : ∀ p, f.entry? p = some .directory → f'.entry? p = some .directory

namespace Keeps

theorem refl (f : Files) : Keeps f f := ⟨rfl, fun _ h => h⟩

theorem trans (h : Keeps f f') (h' : Keeps f' f'') : Keeps f f'' :=
  ⟨h'.here.trans h.here, fun p hp => h'.directory p (h.directory p hp)⟩

/-- Something may be put where no directory is. -/
theorem put (h : f.entry? p ≠ some .directory) : Keeps f (f.put p e) where
  here := rfl
  directory q hq := by
    have hapart : q ≠ p := by
      rintro rfl
      exact h hq
    rw [lookup_put_of_ne hapart, hq]

/-- A path leads on where it led before. -/
theorem follow (hkeeps : Keeps f f') {dir : Place} {ns : List String} (h : f.follow dir ns = .ok p) :
    f'.follow dir ns = .ok p := by
  induction ns generalizing dir with
  | nil => exact h
  | cons n ns ih =>
    unfold Files.follow at h ⊢
    split at h
    · cases h
    · rename_i hshort
      rw [if_neg hshort]
      split at h
      · rename_i hlast
        rw [if_pos hlast]
        exact h
      · rename_i hmore
        rw [if_neg hmore]
        split at h
        · rename_i hthere
          rw [hkeeps.directory _ hthere]
          exact ih h
        · cases h
        · cases h

theorem locate (hkeeps : Keeps f f') {path : String} (h : f.locate path = .ok p) :
    f'.locate path = .ok p := by
  unfold Files.locate at h ⊢
  split at h
  · cases h
  · split at h
    · cases h
    · rename_i hne
      rw [if_neg hne]
      have hstart : f'.origin path = f.origin path := by
        unfold origin
        rw [hkeeps.here]
      rw [hstart]
      exact hkeeps.follow h

end Keeps

/-! ## Writing -/

/-- What writing does: the text stands at the place that the path leads to. -/
theorem write_eq {path content : String} (h : f.write path content = .ok f') :
    ∃ p, f.locate path = .ok p ∧ f.entry? p ≠ some .directory ∧ f' = f.put p (.text content) := by
  unfold write at h
  cases hlocated : f.locate path with
  | error e =>
    rw [hlocated] at h
    cases h
  | ok p =>
    rw [hlocated] at h
    refine ⟨p, rfl, ?_⟩
    change (if f.entry? p = some .directory then throw .isADirectory
      else pure (f.put p (.text content)) : Except FileError Files) = .ok f' at h
    split at h
    · cases h
    · rename_i hfree
      cases h
      exact ⟨hfree, rfl⟩

theorem keeps_of_write {path content : String} (h : f.write path content = .ok f') : Keeps f f' := by
  obtain ⟨p, -, hfree, rfl⟩ := write_eq h
  exact Keeps.put hfree

/-- What has been written can be read. -/
theorem read_of_write {path content : String} (h : f.write path content = .ok f') :
    f'.read path = .ok content := by
  have hkeeps := keeps_of_write h
  obtain ⟨p, hlocated, hfree, rfl⟩ := write_eq h
  have hinner : p ≠ [] := by
    rintro rfl
    exact hfree rfl
  unfold read find
  rw [hkeeps.locate hlocated]
  simp [Bind.bind, Except.bind, lookup_put_self hinner]
  rfl

theorem isThere_of_read {path content : String} (h : f.read path = .ok content) : f.isThere path := by
  unfold isThere
  unfold read at h
  cases hfound : f.find path with
  | error e =>
    rw [hfound] at h
    cases h
  | ok e => rfl

/-! ## Making directories -/

theorem keeps_of_makeAlong {dir : Place} {made : Bool} {ns : List String} {r : Except FileError Unit}
    (h : makeAlong dir made ns f = (r, f')) : Keeps f f' := by
  induction ns generalizing dir made f with
  | nil =>
    cases h
    exact .refl _
  | cons n ns ih =>
    unfold makeAlong at h
    split at h
    · cases h
      exact .refl _
    · split at h
      · exact ih h
      · cases h
        exact .refl _
      · rename_i hnothing
        exact (Keeps.put (by simp [hnothing])).trans (ih h)

/-- Where directories have been made, none needs to be made again. -/
theorem makeAlong_again {dir : Place} {made made' : Bool} {ns : List String}
    (h : makeAlong dir made ns f = (.ok (), f')) (hkeeps : Keeps f' f'') :
    makeAlong dir made' ns f'' = (.ok (), f'') := by
  induction ns generalizing dir made f with
  | nil => rfl
  | cons n ns ih =>
    -- Whether it was there or has been made, the later steps have kept it.
    have hthere : entry? f'' (enter dir n) = some .directory := by
      unfold makeAlong at h
      split at h
      · cases h
      · split at h
        · rename_i hfound
          exact hkeeps.directory _ ((keeps_of_makeAlong h).directory _ hfound)
        · cases h
        · rename_i hnothing
          have hinner : enter dir n ≠ [] := by
            intro hroot
            rw [hroot] at hnothing
            cases hnothing
          exact hkeeps.directory _ ((keeps_of_makeAlong h).directory _ (lookup_put_self hinner))
    unfold makeAlong at h ⊢
    split at h
    · cases h
    · rename_i hshort
      rw [if_neg hshort, hthere]
      split at h
      · exact ih h
      · cases h
      · exact ih h

/-- A directory that has been made can be made again without any change. -/
theorem makeDirectory_again {path : String} (h : f.makeDirectory path = (.ok (), f'))
    (hkeeps : Keeps f' f'') : f''.makeDirectory path = (.ok (), f'') := by
  unfold makeDirectory at h ⊢
  split at h
  · cases h
  · have hstart : f''.origin path = f.origin path := by
      unfold origin
      rw [hkeeps.here, (keeps_of_makeAlong h).here]
    rw [hstart]
    exact makeAlong_again h hkeeps

end PooledSessions.Files
