import PooledSessions.Proofs.Toml.Numerals

/-!
# Lines of a settings file

A piece of text that consists of whole lines is cut into statements without a look at what follows it.
This is shown for a remark, for the header of a table and for a value under a key without quotes, and it
passes on to lines that stand after each other.  The number that bounds the cutting only has to cover the
characters of the text.
-/

namespace PooledSessions.Toml

/-! ## Pieces of text -/

/-- A piece of text is cut into statements, or refused, whatever follows it. -/
structure Says (text : List Char) (said : Option (List Statement)) : Prop where
  /-- The text does not begin with a mark of the byte order, which would be dropped. -/
  unmarked : text.head? ≠ some '\ufeff'
  /-- The cutting goes on behind the text. -/
  cut : ∀ n rest, text.length ≤ n → ∃ m, n ≤ m + text.length ∧
    statements n (text ++ rest) = said.bind fun here => (statements m rest).map (here ++ ·)

namespace Says

variable {text text' : List Char} {said said' : Option (List Statement)}

theorem nil : Says [] (some []) where
  unmarked := by simp
  cut n rest _ := ⟨n, by simp, by cases hread : statements n rest <;> simp [hread]⟩

/-- Pieces that stand after each other say what they say in turn. -/
theorem append (h : Says text said) (h' : Says text' said') :
    Says (text ++ text') (said.bind fun here => said'.map (here ++ ·)) where
  unmarked := by
    cases text with
    | nil => simpa using h'.unmarked
    | cons c text => simpa using h.unmarked
  cut n rest henough := by
    rw [List.length_append] at henough
    -- The first piece leaves enough of the bound for the second.
    obtain ⟨m, hbound, hread⟩ := h.cut n (text' ++ rest) (by omega)
    obtain ⟨m', hbound', hread'⟩ := h'.cut m rest (by omega)
    refine ⟨m', by rw [List.length_append]; omega, ?_⟩
    rw [List.append_assoc, hread, hread']
    cases said with
    | none => rfl
    | some here => cases said' <;> simp [Function.comp_def]

/-- Pieces that are both readable say what they say in turn; otherwise they are refused together. -/
theorem append_if {p q r : Prop} [Decidable p] [Decidable q] [Decidable r] {here there : List Statement}
    (h : Says text (if p then some here else none)) (h' : Says text' (if q then some there else none))
    (hboth : r ↔ p ∧ q) : Says (text ++ text') (if r then some (here ++ there) else none) := by
  have hsaid := h.append h'
  by_cases hfirst : p
  · by_cases hsecond : q
    · simpa [hboth, hfirst, hsecond] using hsaid
    · simpa [hboth, hfirst, hsecond] using hsaid
  · simpa [hboth, hfirst] using hsaid

/-- A text of one line.  One step of the cutting takes it. -/
theorem line {c : Char} (hmark : c ≠ '\ufeff')
    (h : ∀ n rest, statements (n + 1) (c :: text ++ rest)
      = said.bind fun here => (statements n rest).map (here ++ ·)) : Says (c :: text) said where
  unmarked := by simpa using hmark
  cut n rest henough := by
    obtain ⟨n, rfl⟩ : ∃ m, n = m + 1 := ⟨n - 1, by simp at henough; omega⟩
    exact ⟨n, by simp, h n rest⟩

/-- A whole file is cut into what it says. -/
theorem statements_eq (h : Says text said) : statements (text.length + 1) text = said := by
  obtain ⟨m, hbound, hread⟩ := h.cut (text.length + 1) [] (by omega)
  obtain ⟨m, rfl⟩ : ∃ k, m = k + 1 := ⟨m - 1, by omega⟩
  rw [List.append_nil] at hread
  rw [hread]
  cases said <;> simp [statements, skipBlanks]

/-- A whole file is read by carrying out what it says. -/
theorem ofText?_eq {s : String} (h : Says s.toList said) :
    Document.ofText? s
      = said.bind fun ss => (ss.foldlM Document.perform Document.empty).map (·.root) := by
  have hwhole := h.statements_eq
  unfold Document.ofText?
  split
  next r hmarked => exact absurd (by simp [hmarked]) h.unmarked
  next =>
    simp only [hwhole, Option.map_eq_bind]
    rfl

end Says

/-! ## Keys -/

/-- A key that needs no quotes. -/
def IsBareKey (k : String) : Prop := k ≠ "" ∧ ∀ c ∈ k.toList, isBare c

instance (k : String) : Decidable (IsBareKey k) :=
  decidable_of_iff (k ≠ "" ∧ k.toList.all isBare) (by simp [IsBareKey])

theorem IsBareKey.eq_cons {k : String} (h : IsBareKey k) :
    ∃ c cs, k.toList = c :: cs ∧ isBare c := by
  cases hshape : k.toList with
  | nil => exact absurd (String.toList_eq_nil_iff.mp hshape) h.1
  | cons c cs => exact ⟨c, cs, rfl, h.2 c (by simp [hshape])⟩

/-- A blank in front is skipped, a key is not. -/
theorem IsBareKey.skipBlanks {k : String} (h : IsBareKey k) (rest : List Char) :
    skipBlanks (k.toList ++ rest) = k.toList ++ rest := by
  obtain ⟨c, cs, hshape, hbare⟩ := h.eq_cons
  have hspace : c ≠ ' ' := ne_of_kind hbare (by decide)
  have htab : c ≠ '\t' := ne_of_kind hbare (by decide)
  simp [hshape, Toml.skipBlanks, isBlank, hspace, htab]

theorem keyPart?_bare {k : String} (h : IsBareKey k) {rest : List Char}
    (hstop : ∀ c ∈ rest.head?, isBare c = false) :
    keyPart? (k.toList ++ rest) = some (k, rest) := by
  have htaken : (k.toList ++ rest).takeWhile isBare = k.toList := by
    rw [List.takeWhile_append_of_pos h.2]
    cases rest with
    | nil => simp
    | cons c rest => simp [hstop c (by simp)]
  have hleft : (k.toList ++ rest).dropWhile isBare = rest := by
    rw [List.dropWhile_append_of_pos h.2]
    cases rest with
    | nil => simp
    | cons c rest => simp [hstop c (by simp)]
  obtain ⟨c, cs, hshape, hbare⟩ := h.eq_cons
  have hquote : c ≠ '"' := ne_of_kind hbare (by decide)
  have hsingleQuote : c ≠ '\'' := ne_of_kind hbare (by decide)
  have hname : String.ofList (c :: cs) = k := by rw [← hshape, String.ofList_toList]
  rw [hshape, List.cons_append] at htaken hleft ⊢
  unfold keyPart?
  simp [hquote, hsingleQuote, htaken, hleft, hname]

/-- A key without quotes that no point follows is read as it stands, with the blanks behind it. -/
theorem key?_bare {k : String} (h : IsBareKey k) (rest : List Char)
    (hstop : ∀ c ∈ rest.head?, isBare c = false) (hpoint : (skipBlanks rest).head? ≠ some '.') :
    key? (k.toList ++ rest) = some (⟨[], k⟩, skipBlanks rest) := by
  unfold key? depthLimit keyParts?
  rw [h.skipBlanks, keyPart?_bare h hstop]
  simp only [Option.bind_some]
  split
  next r hdotted => exact absurd (by simp [hdotted]) hpoint
  next => simp [Key.ofPath?]

/-! ## Statements -/

@[simp]
theorem skipBlanks_space (cs : List Char) : skipBlanks (' ' :: cs) = skipBlanks cs := by
  simp [skipBlanks, isBlank]

/-- A name between brackets is read as a header. -/
theorem statement?_header {name : String} (h : IsBareKey name) (rest : List Char) :
    statement? ('[' :: (name.toList ++ ']' :: rest)) = some (.header ⟨[], name⟩, rest) := by
  have hkept : skipBlanks (']' :: rest) = ']' :: rest := rfl
  have hkey := key?_bare h (']' :: rest) (by simp; decide) (by simp [hkept])
  obtain ⟨c, cs, hchars, hbare⟩ := h.eq_cons
  have hsingle : c ≠ '[' := ne_of_kind hbare (by decide)
  rw [hchars, List.cons_append] at hkey ⊢
  simp [statement?, hsingle, hkey, hkept, exactly?]

/-- A key, an equals sign and a value are read as an entry. -/
theorem statement?_entry {k : String} (h : IsBareKey k) (cs : List Char) :
    statement? (k.toList ++ ' ' :: '=' :: ' ' :: cs)
      = (value? depthLimit (skipBlanks cs)).bind fun found =>
          some (.entry ⟨[], k⟩ found.1, found.2) := by
  have hkept : skipBlanks ('=' :: ' ' :: cs) = '=' :: ' ' :: cs := rfl
  have hkey := key?_bare h (' ' :: '=' :: ' ' :: cs) (by simp; decide) (by simp [hkept])
  obtain ⟨c, ds, hchars, hbare⟩ := h.eq_cons
  have hbracket : c ≠ '[' := ne_of_kind hbare (by decide)
  rw [hchars, List.cons_append] at hkey ⊢
  simp [statement?, hbracket, hkey, hkept, exactly?]

/-! ## Lines -/

/-- A text that stands for nothing on its line: a comment, or no text at all. -/
def IsRemark (t : String) : Prop := (∀ c ∈ t.toList, isPrintable c) ∧ ∀ c ∈ t.toList.head?, c = '#'

instance (t : String) : Decidable (IsRemark t) :=
  decidable_of_iff (t.toList.all isPrintable ∧ t.toList.head?.all (· = '#')) (by
    simp [IsRemark, Option.all_eq_true])

/-- A line of a table. -/
inductive Line
  /-- A comment, or nothing. -/
  | remark (text : String)
  /-- An integer under a key. -/
  | number (key : String) (n : Int)
  /-- Some other value under a key, with what it is written as. -/
  | other (key text : String) (item : Item)

namespace Line

/-- The text of a line with its end. -/
def text : Line → String
  | remark t => t ++ "\n"
  | number k n => k ++ " = " ++ toString n ++ "\n"
  | other k t _ => k ++ " = " ++ t ++ "\n"

/-- What a line gives. -/
def given? : Line → Option (String × Item)
  | remark _ => none
  | number k n => some (k, .integer n)
  | other k _ v => some (k, v)

/-- Whether a line is what it seems to be: a remark cannot be taken for anything else, keys need no
quotes, and a value that is no plain integer means what it stands for. -/
def IsSound : Line → Prop
  | remark t => IsRemark t
  | number k _ => IsBareKey k
  | other k t v => IsBareKey k ∧ Means t.toList (some v)

/-- Whether an integer on the line fits 64 bits with a sign. -/
def Fits : Line → Prop
  | number _ n => Int64.minValue.toInt ≤ n ∧ n ≤ Int64.maxValue.toInt
  | _ => True

instance (l : Line) : Decidable l.Fits := by
  cases l <;> unfold Fits <;> infer_instance

/-- The statement that puts a value under a key of the open table. -/
def assignment (e : String × Item) : Statement := .entry ⟨[], e.1⟩ e.2

/-- The statements of a line. -/
def statements (l : Line) : List Statement := l.given?.toList.map assignment

/-- Lines say what they give, and remarks nothing. -/
theorem flatMap_statements (ls : List Line) :
    ls.flatMap statements = (ls.filterMap given?).map assignment := by
  induction ls with
  | nil => rfl
  | cons l ls ih =>
    rw [List.flatMap_cons, ih]
    cases hgiven : l.given? <;> simp [statements, hgiven]

end Line

theorem isPrintable_newline : isPrintable '\n' = false := by decide

/-- A remark says nothing. -/
theorem says_remark {t : String} (h : IsRemark t) :
    Says (Line.remark t).text.toList (some []) := by
  obtain ⟨hprintable, hbegins⟩ := h
  have hshape : (Line.remark t).text.toList = t.toList ++ ['\n'] := by simp [Line.text]
  rw [hshape]
  cases hchars : t.toList with
  | nil =>
    apply Says.line (by decide)
    intro n rest
    have hblank : isBlank '\n' = false := by decide
    cases hread : statements n rest <;> simp [statements, skipBlanks, hblank, hread]
  | cons c cs =>
    obtain rfl : c = '#' := hbegins c (by simp [hchars])
    apply Says.line (by decide)
    intro n rest
    have hblank : isBlank '#' = false := by decide
    have hdropped : (cs ++ '\n' :: rest).dropWhile isPrintable = '\n' :: rest := by
      rw [List.dropWhile_append_of_pos fun c hc => hprintable c (by simp [hchars, hc])]
      simp [isPrintable_newline]
    cases hread : statements n rest <;>
      simp [statements, skipBlanks, hblank, lineEnd?, hdropped, hread]

/-- The header of a table opens it. -/
theorem says_header {name : String} (h : IsBareKey name) :
    Says ("[" ++ name ++ "]\n").toList (some [.header ⟨[], name⟩]) := by
  have hshape : ("[" ++ name ++ "]\n").toList = '[' :: (name.toList ++ [']', '\n']) := by simp
  rw [hshape]
  apply Says.line (by decide)
  intro n rest
  have hbracket : isBlank '[' = false := by decide
  have hhead := statement?_header h ('\n' :: rest)
  cases hread : statements n rest <;>
    simp [statements, skipBlanks, hbracket, hhead, hread]

/-- A value under a key is assigned to it, if it is a value. -/
theorem says_entry {k t : String} {item : Option Item} (h : IsBareKey k) (hmeans : Means t.toList item) :
    Says (k ++ " = " ++ t ++ "\n").toList (item.map fun v => [Line.assignment (k, v)]) := by
  have hshape : (k ++ " = " ++ t ++ "\n").toList
      = k.toList ++ ' ' :: '=' :: ' ' :: (t.toList ++ ['\n']) := by
    simp
  rw [hshape]
  obtain ⟨c, cs, hchars, hbare⟩ := h.eq_cons
  have hcomment : c ≠ '#' := ne_of_kind hbare (by decide)
  have hnewline : c ≠ '\n' := ne_of_kind hbare (by decide)
  have hcarriage : c ≠ '\r' := ne_of_kind hbare (by decide)
  rw [hchars, List.cons_append]
  apply Says.line (ne_of_kind hbare (by decide))
  intro n rest
  have hkept := h.skipBlanks (' ' :: '=' :: ' ' :: (t.toList ++ '\n' :: rest))
  have hstated := statement?_entry h (t.toList ++ '\n' :: rest)
  rw [hchars, List.cons_append] at hkept hstated
  -- The value and the end of its line are read in turn, as in the meaning of the text.
  have hcut : statements (n + 1) (c :: (cs ++ ' ' :: '=' :: ' ' :: (t.toList ++ '\n' :: rest)))
      = ((value? depthLimit (skipBlanks (t.toList ++ '\n' :: rest))).bind fun found =>
          (lineEnd? found.2).map (found.1, ·)).bind fun found =>
            (statements n found.2).map (.entry ⟨[], k⟩ found.1 :: ·) := by
    simp only [statements, hkept, hcomment, hnewline, hcarriage, hstated]
    cases value? depthLimit (skipBlanks (t.toList ++ '\n' :: rest)) with
    | none => rfl
    | some found =>
      obtain ⟨v, r⟩ := found
      cases hended : lineEnd? r with
      | none => simp [hended]
      | some r =>
        simp only [Option.bind_eq_bind, Option.bind_some, hended, Option.map_eq_bind]
        rfl
  simp only [List.cons_append, List.append_assoc, List.nil_append]
  rw [hcut, hmeans rest]
  cases item <;> simp [Line.assignment]

namespace Line

/-- A line says what it gives, unless an integer on it does not fit. -/
theorem says_line {l : Line} (h : l.IsSound) :
    Says l.text.toList (if l.Fits then some l.statements else none) := by
  cases l with
  | remark t => simpa [Fits, statements, given?] using says_remark h
  | number k n =>
    have hsaid := says_entry h (means_integer n)
    unfold fitting? at hsaid
    by_cases hfits : Int64.minValue.toInt ≤ n ∧ n ≤ Int64.maxValue.toInt
    · rw [if_pos hfits] at hsaid
      rw [if_pos (show (number k n).Fits from hfits)]
      exact hsaid
    · rw [if_neg hfits] at hsaid
      rw [if_neg (show ¬ (number k n).Fits from hfits)]
      exact hsaid
  | other k t v => exact says_entry h.1 h.2

/-- Lines say what they give in turn, unless an integer on one of them does not fit. -/
theorem says_join (ls : List Line) (h : ∀ l ∈ ls, l.IsSound) :
    Says (String.join (ls.map text)).toList
      (if ∀ l ∈ ls, l.Fits then some (ls.flatMap statements) else none) := by
  induction ls with
  | nil => simpa using Says.nil
  | cons l ls ih =>
    rw [List.map_cons, String.join_cons, String.toList_append, List.flatMap_cons]
    exact (says_line (h l (by simp))).append_if (ih fun l hl => h l (by simp [hl])) (by simp)

end Line

end PooledSessions.Toml
