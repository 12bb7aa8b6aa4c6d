import Mathlib
import PooledSessions.CommandLine.Program
import PooledSessions.Proofs.Config.RoundTrip
import PooledSessions.Proofs.Files.Storing
import PooledSessions.Proofs.Text.Splitting

/-!
# Settings shown and loaded

A configuration can be shown and written if its numbers fit 64 bits with a sign.  What is shown has the
path of the file in front, as a remark, and is read back like what is written.  Every configuration that
has been loaded can be shown, the file that is made for the user holds the defaults that were answered,
and a file that people write changes exactly the settings that it gives.
-/

namespace PooledSessions

open Toml (Item Entries Line Sheet)

/-! ## Showing -/

namespace Program

/-- What lines look like on the screen. -/
def screen (lines : List String) : String := String.join (lines.map (· ++ "\n"))

/-- The path that is shown with the settings. -/
def shownPath (e : Environment) (f : Files) (named : Option String) : Except FileError String :=
  match named with
  | some path => .ok path
  | none => (Config.place e f).1

end Program

namespace Config

variable {c : Config} {text path : String} {e : Environment} {f f' : Files}

/-- What is written ends with the end of a line. -/
theorem ends_of_toText? (h : c.toText? = some text) : ∃ front, text = front ++ "\n" := by
  unfold toText? at h
  split at h
  next =>
    cases h
    simp only [groupText, retryFields, List.map_cons, List.map_nil, String.join_cons, String.join_nil,
      String.append_empty, ← String.append_assoc]
    exact ⟨_, rfl⟩
  next => cases h

/-- What is shown is the path behind a number sign, and then what is written. -/
theorem screen_showConfig (h : c.toText? = some text) (path : String) :
    (Program.showConfig c path).2 = none ∧
      Program.screen (Program.showConfig c path).1 = "# " ++ path ++ "\n" ++ text := by
  obtain ⟨front, rfl⟩ := ends_of_toText? h
  have hlines := join_dropLast_splitOn front
  refine ⟨by simp [Program.showConfig, h], ?_⟩
  simp only [Program.showConfig, h, Program.screen, List.map_cons, String.join_cons, hlines]

/-- The command that shows the settings shows them with their path, and does not fail. -/
theorem screen_runConfig (h : c.toText? = some text) {named : Option String}
    (hplaced : Program.shownPath e f named = .ok path) :
    (Program.runConfig e f c named).failure = none ∧
      Program.screen (Program.runConfig e f c named).output = "# " ++ path ++ "\n" ++ text := by
  cases named with
  | some p =>
    cases hplaced
    exact screen_showConfig h path
  | none =>
    unfold Program.shownPath at hplaced
    unfold Program.runConfig
    cases hmade : place e f with
    | mk answer f' =>
      simp only [hmade] at hplaced
      subst hplaced
      simpa [hmade] using screen_showConfig h path

/-! ## Loading -/

theorem load_of_some (h : f.read path = .ok text) (hgiven : ofText? text = some c) :
    load path f = .ok c := by
  simp [load, h, hgiven]

theorem load_of_none (h : f.read path = .ok text) (hnone : ofText? text = none) :
    load path f = .error (.parsing path) := by
  simp [load, h, hnone]

theorem exists_of_load (h : load path f = .ok c) :
    ∃ text, f.read path = .ok text ∧ ofText? text = some c := by
  unfold load at h
  split at h
  next => cases h
  next text hread =>
    split at h
    next c' hgiven =>
      cases h
      exact ⟨text, hread, hgiven⟩
    next => cases h

/-- A configuration is written as a text from which it is read back, wherever it has been put. -/
structure IsReadBack (c : Config) (text : String) : Prop where
  /-- The text is what is written for the configuration. -/
  written : c.toText? = some text
  /-- The text gives the configuration. -/
  read : ofText? text = some c
  /-- A file with the text holds the configuration. -/
  loaded : ∀ path f f', Files.write f path text = .ok f' → load path f' = .ok c
  /-- The text is shown below the path of the file. -/
  shown : ∀ e f named path, Program.shownPath e f named = .ok path →
    (Program.runConfig e f c named).failure = none ∧
      Program.screen (Program.runConfig e f c named).output = "# " ++ path ++ "\n" ++ text
  /-- What is shown can be loaded from a file too, unless the path above it spoils the line. -/
  shownLoaded : ∀ shown path f f', (∀ a ∈ shown.toList, Toml.isPrintable a) →
    Files.write f path ("# " ++ shown ++ "\n" ++ text) = .ok f' → load path f' = .ok c

/-- Writable configurations are read back. -/
theorem isReadBack (h : ∀ s, c.value s ≤ largest) : ∃ text, c.IsReadBack text := by
  have hwritable : c.isWritable := isWritable_iff.mpr h
  obtain ⟨text, hwritten⟩ : ∃ text, c.toText? = some text := ⟨_, by rw [toText?, if_pos hwritable]⟩
  have hread : ofText? text = some c := by simpa using ofText?_toText? hwritten [] (by simp)
  refine ⟨text, hwritten, hread, ?_, fun e f named path => screen_runConfig hwritten, ?_⟩
  · intro path f f' hput
    exact load_of_some (Files.read_of_write hput) hread
  · intro shown path f f' hprintable hput
    have hremark : Toml.IsRemark ("# " ++ shown) := by
      refine ⟨?_, by simp⟩
      intro a ha
      simp at ha
      rcases ha with rfl | rfl | ha
      · decide
      · decide
      · exact hprintable a ha
    have hreadBelow := ofText?_toText? hwritten ["# " ++ shown] (by simpa using hremark)
    exact load_of_some (Files.read_of_write hput) (by simpa using hreadBelow)

/-! ## The user's own file -/

/-- Once the place of the user's file has been made, it is there for good. -/
theorem place_again {f'' : Files} (h : place e f = (.ok path, f')) (hkeeps : Files.Keeps f' f'') :
    path = e.configPath ∧ place e f'' = (.ok path, f'') := by
  unfold place at h ⊢
  cases hmade : f.makeDirectory e.configDirectory with
  | mk answer g =>
    rw [hmade] at h
    cases answer with
    | error cause => cases h
    | ok =>
      cases h
      rw [Files.makeDirectory_again hmade hkeeps]
      exact ⟨rfl, rfl⟩

theorem loadOrInit_of_isThere (hplaced : place e f = (.ok path, f')) (hthere : f'.isThere path) :
    loadOrInit e f = (load path f', f', []) := by
  unfold loadOrInit
  rw [hplaced]
  simp [hthere]

/-- The user's settings stay.  Once they have been answered, the user's file holds them, and they are
answered again without another change to the files. -/
theorem loadOrInit_again {events : List Event} (h : loadOrInit e f = (.ok c, f', events)) :
    load e.configPath f' = .ok c ∧ loadOrInit e f' = (.ok c, f', []) := by
  unfold loadOrInit at h
  split at h
  next => cases h
  next path g hplaced =>
    split at h
    next hthere =>
      -- The file was there, and reading it has changed nothing.
      obtain ⟨hanswer, hsame⟩ := Prod.mk.inj h
      obtain ⟨rfl, -⟩ := Prod.mk.inj hsame
      obtain ⟨rfl, hagain⟩ := place_again hplaced (.refl g)
      rw [loadOrInit_of_isThere hagain hthere, hanswer]
      exact ⟨rfl, rfl⟩
    next hmissing =>
      split at h
      next => cases h
      next g' hput =>
        -- The file is new.  It holds the defaults, and its directory is not made again.
        cases h
        obtain ⟨text, hdefault⟩ := isReadBack (c := {}) default_le_largest
        rw [hdefault.written, Option.getD_some] at hput
        obtain ⟨rfl, hagain⟩ := place_again hplaced (Files.keeps_of_write hput)
        have hthere := Files.isThere_of_read (Files.read_of_write hput)
        have hanswer := hdefault.loaded _ _ _ hput
        rw [loadOrInit_of_isThere hagain hthere, hanswer]
        exact ⟨rfl, rfl⟩

/-! ## Files that people write -/

/-- What a file with this tree changes: exactly the values that the tree gives, and nothing if one of
them does not fit. -/
structure Changes (es : Entries) (answer : Except LoadError Config) (path : String) : Prop where
  /-- The given values replace the defaults. -/
  replaced : ∀ v, Gives es v → ∃ c, answer = .ok c ∧ ∀ s, c.value s = (v s).getD (value {} s)
  /-- A value that its setting cannot take spoils the file. -/
  spoiled : ∀ s item, given es s = some item → ¬ s.Takes item → answer = .error (.parsing path)

theorem changes_of_ofText? {es : Entries} (h : f.read path = .ok text)
    (hsame : ofText? text = ofEntries? es) : Changes es (load path f) path where
  replaced v hgives := by
    refine ⟨overlay v, ?_, value_overlay hgives.fits⟩
    exact load_of_some h (hsame.trans (ofEntries?_eq_overlay hgives))
  spoiled _ _ hgiven hunfit := load_of_none h (hsame.trans (ofEntries?_eq_none hgiven hunfit))

/-- Configurations survive being written, and files replace exactly what they give. -/
theorem read_back_and_replaced :
    (∀ c : Config, (∀ s, c.value s ≤ 2 ^ 63 - 1) → ∃ text, c.IsReadBack text) ∧
    (∀ path f c, load path f = .ok c → ∃ text, c.IsReadBack text) ∧
    (∀ e f c f' events, loadOrInit e f = (.ok c, f', events) →
      load e.configPath f' = .ok c ∧ loadOrInit e f' = (.ok c, f', [])) ∧
    (∀ path f text es, Files.read f path = .ok text → Toml.Document.ofText? text = some es →
      Changes es (load path f) path) ∧
    (∀ path f d, Sheet.IsSound d → Files.read f path = .ok d.text →
      if d.Fits then Changes d.entries (load path f) path
      else load path f = .error (.parsing path)) := by
  refine ⟨fun c h => isReadBack h, ?_, fun e f c f' events => loadOrInit_again, ?_, ?_⟩
  · intro path f c h
    obtain ⟨text, -, hgiven⟩ := exists_of_load h
    exact isReadBack (value_le_largest_of_ofText? hgiven)
  · intro path f text es h htree
    exact changes_of_ofText? h (ofText?_eq htree)
  · intro path f d hsound h
    have hsheet := ofText?_sheet hsound
    split
    next hfits =>
      rw [if_pos hfits] at hsheet
      exact changes_of_ofText? h hsheet
    next hunfit =>
      exact load_of_none h (hsheet.trans (if_neg hunfit))

/-- A file with the groups in another order, with lines that mean nothing here, and with a third table.
So many attempts are allowed in it. -/
def strangeSheet (attempts : Int) : Sheet where
  top := [.remark "# mine", .other "verbose" "true" (.flag true)]
  tables := [("retry", [.number "slow_cap_ms" 2000, .remark "", .number "max_attempts" attempts]),
    ("colours", [.number "red" 255]), ("pool", [.number "depth" (-1), .number "size_limit" 8])]

theorem isSound_strangeSheet (attempts : Int) : (strangeSheet attempts).IsSound where
  lines l hl := by
    simp only [Sheet.lines, strangeSheet, List.flatMap_cons, List.flatMap_nil, List.cons_append,
      List.nil_append, List.mem_cons, List.not_mem_nil, or_false] at hl
    rcases hl with rfl | rfl | rfl | rfl | rfl | rfl | rfl | rfl
    · exact (by decide : Toml.IsRemark "# mine")
    · exact ⟨by decide, fun _ => rfl⟩
    · exact isBareKey_name .slowCapMs
    · exact (by decide : Toml.IsRemark "")
    · exact isBareKey_name .maxAttempts
    · exact (by decide : Toml.IsBareKey "red")
    · exact (by decide : Toml.IsBareKey "depth")
    · exact isBareKey_name .sizeLimit
  names := by
    simp only [strangeSheet, List.forall_mem_cons]
    decide
  distinct := by
    change ["verbose", "retry", "colours", "pool"].Nodup
    decide
  distinctKeys t ht := by
    simp only [strangeSheet, List.mem_cons, List.not_mem_nil, or_false] at ht
    rcases ht with rfl | rfl | rfl
    · change ["slow_cap_ms", "max_attempts"].Nodup
      decide
    · change ["red"].Nodup
      decide
    · change ["depth", "size_limit"].Nodup
      decide

/-- What the strange file gives. -/
def strangeValues : Setting → Option Nat
  | .sizeLimit => some 8
  | .maxAttempts => some 4
  | .slowCapMs => some 2000
  | _ => none

theorem gives_strangeSheet : Gives (strangeSheet 4).entries strangeValues where
  tabled s item hthere := by
    cases s <;> cases hthere <;> exact ⟨_, _, rfl⟩
  given s := by
    cases s <;> rfl
  fits s n hsame := by
    cases s <;> cases hsame <;> decide

/-- The defaults are read back, and the strange file changes three settings.  With a number of attempts
that is one too large for 32 bits it is refused. -/
theorem read_back_and_replaced_of_strangeSheet :
    (∃ text, ({} : Config).IsReadBack text) ∧
    (∃ c, load "c" ⟨[], [(["c"], .text (strangeSheet 4).text)]⟩ = .ok c ∧ c.value .sizeLimit = 8 ∧
      c.value .maxAttempts = 4 ∧ c.value .slowCapMs = 2000 ∧ c.value .fastBaseMs = 5) ∧
    load "c" ⟨[], [(["c"], .text (strangeSheet 4294967296).text)]⟩ = .error (.parsing "c") := by
  have hfile (text : String) : Files.read ⟨[], [(["c"], .text text)]⟩ "c" = .ok text := by cbv
  refine ⟨read_back_and_replaced.1 {} default_le_largest, ?_, ?_⟩
  · have hchanges := read_back_and_replaced.2.2.2.2 "c" _ _ (isSound_strangeSheet 4) (hfile _)
    rw [if_pos (by decide)] at hchanges
    obtain ⟨c, hloaded, hvalues⟩ := hchanges.replaced _ gives_strangeSheet
    exact ⟨c, hloaded, hvalues .sizeLimit, hvalues .maxAttempts, hvalues .slowCapMs, hvalues .fastBaseMs⟩
  · have hchanges := read_back_and_replaced.2.2.2.2 "c" _ _ (isSound_strangeSheet 4294967296) (hfile _)
    rw [if_pos (by decide)] at hchanges
    apply hchanges.spoiled .maxAttempts (.integer 4294967296) rfl
    rintro ⟨n, hsmall, hsame⟩
    cases hsame
    exact absurd hsmall (by decide)

end Config

end PooledSessions
