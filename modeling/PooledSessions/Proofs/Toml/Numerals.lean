import PooledSessions.Toml.Document

/-!
# Numbers at the end of a line

An integer written in decimal, with a minus if it is negative, is read as that integer, provided that it
has 64 bits with its sign; a longer one is not read at all.  The reader tries a moment and a number with
a fraction first.  Both give up over digits that the end of the line follows at once, because neither
finds the sign that would have to stand between or behind the digits.
-/

namespace PooledSessions.Toml

/-! ## Digits -/

@[simp]
theorem isDigitOf_ten (c : Char) : isDigitOf 10 c = c.isDigit := by
  cases h : c.isDigit with
  | true =>
    have : c.toNat - '0'.toNat < 10 := by
      have := (Char.isDigit_iff_toNat.mp h).2
      simp at this ⊢
      omega
    simpa [isDigitOf, digitValue?, h] using this
  | false =>
    unfold isDigitOf digitValue?
    rw [if_neg (by simp [h])]
    split
    · simp
    · split <;> simp

/-- A character of some kind differs from every one that is not of the kind. -/
theorem ne_of_kind {kind : Char → Bool} {c d : Char} (hc : kind c) (hd : kind d = false) : c ≠ d := by
  rintro rfl
  rw [hc] at hd
  exact Bool.noConfusion hd

/-- Digits in front of the end of a line are read up to that end. -/
theorem moreDigits_append (ds rest : List Char) (h : ∀ c ∈ ds, c.isDigit) :
    moreDigits 10 (ds ++ '\n' :: rest) = (ds, '\n' :: rest) := by
  induction ds with
  | nil =>
    have hnone : Char.isDigit '\n' = false := by decide
    cases rest with
    | nil => simp [moreDigits, hnone]
    | cons c rest => simp [moreDigits, hnone]
  | cons c ds ih =>
    have hdigit : c.isDigit := h c (by simp)
    have hothers := ih fun d hd => h d (by simp [hd])
    cases ds with
    | nil => simp_all [moreDigits]
    | cons d ds => simp_all [moreDigits]

theorem digits?_append {ds : List Char} (rest : List Char) (h : ∀ c ∈ ds, c.isDigit) (hne : ds ≠ []) :
    digits? 10 (ds ++ '\n' :: rest) = Option.some (ds, '\n' :: rest) := by
  cases ds with
  | nil => exact absurd rfl hne
  | cons c ds =>
    have hdigit : c.isDigit := h c (by simp)
    simp [digits?, hdigit, moreDigits_append ds rest fun d hd => h d (by simp [hd])]

/-- Digits write the same number here as elsewhere. -/
theorem ofDigits_ten (ds : List Char) (h : ∀ c ∈ ds, c.isDigit) :
    ofDigits 10 ds = Nat.ofDigitChars 10 ds 0 := by
  have hfrom (start : Nat) :
      ds.foldl (fun n c => n * 10 + (digitValue? c).getD 0) start = Nat.ofDigitChars 10 ds start := by
    induction ds generalizing start with
    | nil => simp
    | cons c ds ih =>
      have hdigit : c.isDigit := h c (by simp)
      rw [List.foldl_cons, ih fun d hd => h d (by simp [hd]), Nat.ofDigitChars_cons]
      simp [digitValue?, hdigit, Nat.mul_comm]
  exact hfrom 0

/-! ## The digits of a number -/

theorem isDigit_of_mem_decimal {n : Nat} {c : Char} (h : c ∈ Nat.toDigits 10 n) : c.isDigit :=
  Nat.isDigit_of_mem_toDigits (by decide) (by decide) h

@[simp]
theorem ofDigits_decimal (n : Nat) : ofDigits 10 (Nat.toDigits 10 n) = n := by
  rw [ofDigits_ten _ fun c hc => isDigit_of_mem_decimal hc, Nat.ofDigitChars_ten_toDigits]

/-- Only zero begins with a zero. -/
theorem head_decimal_ne_zero {n : Nat} (h : 0 < n) : (Nat.toDigits 10 n).head? ≠ some '0' := by
  induction n using Nat.strongRecOn with
  | ind n ih =>
    by_cases hsmall : n < 10
    · rw [Nat.toDigits_of_lt_base hsmall]
      simp
      omega
    · have hleading := ih (n / 10) (by omega) (by omega)
      rw [Nat.toDigits_of_base_le (by decide) (by omega)]
      cases hdigits : Nat.toDigits 10 (n / 10) with
      | nil => exact absurd hdigits Nat.toDigits_ne_nil
      | cons c ds => simpa [hdigits] using hleading

/-- A number in decimal begins with a digit, and a zero in front stands alone. -/
theorem decimal_eq_cons (n : Nat) :
    ∃ c ds, Nat.toDigits 10 n = c :: ds ∧ c.isDigit ∧ (c = '0' → ds = []) := by
  cases h : Nat.toDigits 10 n with
  | nil => exact absurd h Nat.toDigits_ne_nil
  | cons c ds =>
    refine ⟨c, ds, rfl, isDigit_of_mem_decimal (n := n) (by simp [h]), ?_⟩
    rintro rfl
    cases Nat.eq_zero_or_pos n with
    | inl hzero =>
      rw [hzero, Nat.toDigits_zero] at h
      exact (List.cons.inj h).2.symm
    | inr hpos => exact absurd (by simp [h]) (head_decimal_ne_zero hpos)

theorem whole?_decimal (n : Nat) (rest : List Char) :
    whole? (Nat.toDigits 10 n ++ '\n' :: rest) = some (Nat.toDigits 10 n, '\n' :: rest) := by
  have hread := digits?_append rest (fun c hc => isDigit_of_mem_decimal (n := n) hc) Nat.toDigits_ne_nil
  obtain ⟨c, ds, hshape, -, halone⟩ := decimal_eq_cons n
  rw [hshape] at hread ⊢
  by_cases hzero : c = '0'
  · rw [hzero, halone hzero]
    rfl
  · rw [← hread]
    simp [whole?, hzero]

/-! ## What is no moment -/

/-- Digits up to the end of the line. -/
def Plain (cs : List Char) : Prop :=
  ∃ ds rest, (∀ c ∈ ds, c.isDigit) ∧ cs = ds ++ '\n' :: rest

theorem plain_decimal (n : Nat) (rest : List Char) : Plain (Nat.toDigits 10 n ++ '\n' :: rest) :=
  ⟨_, rest, fun _ hc => isDigit_of_mem_decimal hc, rfl⟩

/-- What digits are taken from stays as plain as it was. -/
theorem Plain.of_counted? {k lo hi n : Nat} {cs r : List Char} (hplain : Plain cs)
    (h : counted? k lo hi cs = some (n, r)) : Plain r := by
  obtain ⟨ds, rest, hdigits, rfl⟩ := hplain
  unfold counted? at h
  simp only at h
  split at h
  next htaken =>
    simp only [Bool.and_eq_true, decide_eq_true_eq, List.all_eq_true] at htaken
    obtain ⟨⟨⟨hlength, hall⟩, -⟩, -⟩ := htaken
    cases h
    -- The end of the line is no digit, so it was not among what was taken.
    have henough : k ≤ ds.length := by
      apply Nat.le_of_not_lt
      intro hmore
      have : '\n' ∈ (ds ++ '\n' :: rest).take k := by
        rw [List.take_append, List.mem_append]
        right
        obtain ⟨m, hm⟩ : ∃ m, k - ds.length = m + 1 := ⟨k - ds.length - 1, by omega⟩
        simp [hm]
      exact absurd (hall _ this) (by decide)
    refine ⟨ds.drop k, rest, fun c hc => hdigits c (List.mem_of_mem_drop hc), ?_⟩
    rw [List.drop_append_of_le_length henough]
  next => cases h

theorem Plain.exactly?_eq_none {c : Char} {cs : List Char} (hplain : Plain cs) (hdigit : c.isDigit = false)
    (hline : c ≠ '\n') : exactly? c cs = none := by
  obtain ⟨ds, rest, hdigits, rfl⟩ := hplain
  cases ds with
  | nil => simp [exactly?, hline.symm]
  | cons d ds =>
    have : d ≠ c := ne_of_kind (hdigits d (by simp)) hdigit
    simp [exactly?, this]

theorem Plain.date?_eq_none {cs : List Char} (hplain : Plain cs) : date? cs = none := by
  unfold date?
  cases hyear : counted? 4 0 9999 cs with
  | none => rfl
  | some found =>
    have := (hplain.of_counted? hyear).exactly?_eq_none (c := '-') (by decide) (by decide)
    simp [this]

theorem Plain.timeOfDay?_eq_none {cs : List Char} (hplain : Plain cs) : timeOfDay? cs = none := by
  unfold timeOfDay?
  cases hhour : counted? 2 0 23 cs with
  | none => rfl
  | some found =>
    have := (hplain.of_counted? hhour).exactly?_eq_none (c := ':') (by decide) (by decide)
    simp [this]

theorem Plain.moment?_eq_none {cs : List Char} (hplain : Plain cs) : moment? cs = none := by
  simp [moment?, hplain.date?_eq_none, hplain.timeOfDay?_eq_none]

/-- No moment begins with a minus. -/
theorem moment?_minus (cs : List Char) : moment? ('-' :: cs) = none := by
  have hnone : Char.isDigit '-' = false := by decide
  simp [moment?, date?, timeOfDay?, counted?, hnone]

/-! ## Integers -/

section

variable {negative : Bool} {n : Nat} {cs rest : List Char}

/-- Digits that the end of the line follows have no fraction. -/
theorem float?_of_sign (h : sign cs = (negative, Nat.toDigits 10 n ++ '\n' :: rest)) :
    float? cs = none := by
  have hread := whole?_decimal n rest
  obtain ⟨c, ds, hshape, hdigit, -⟩ := decimal_eq_cons n
  have hinfinity : c ≠ 'i' := ne_of_kind hdigit (by decide)
  have hnothing : c ≠ 'n' := ne_of_kind hdigit (by decide)
  rw [hshape, List.cons_append] at h hread
  unfold float?
  simp [h, hinfinity, hnothing, hread, fraction?, exponent?]

/-- A sign and the digits of a number are read as an integer, unless a base follows a zero. -/
theorem integer?_of_sign (h : sign cs = (negative, Nat.toDigits 10 n ++ '\n' :: rest))
    (hbase : ∀ c r, cs = '0' :: c :: r → c = '\n') :
    integer? cs
      = (fitting? (if negative then -(n : Int) else n)).map fun n => (n, '\n' :: rest) := by
  unfold integer?
  simp only
  split
  next => exact absurd (hbase _ _ rfl) (by decide)
  next => exact absurd (hbase _ _ rfl) (by decide)
  next => exact absurd (hbase _ _ rfl) (by decide)
  next =>
    simp only [h, whole?_decimal, ofDigits_decimal, Option.bind_eq_bind, Option.bind_some,
      Option.pure_def, Option.map_eq_bind]
    rfl

theorem number?_of_sign (negative : Bool) (hmoment : moment? cs = none)
    (h : sign cs = (negative, Nat.toDigits 10 n ++ '\n' :: rest))
    (hbase : ∀ c r, cs = '0' :: c :: r → c = '\n') :
    number? cs
      = (fitting? (if negative then -(n : Int) else n)).map fun n => (.integer n, '\n' :: rest) := by
  unfold number?
  rw [hmoment, float?_of_sign h, integer?_of_sign h hbase]
  simp [Function.comp_def]

end

/-- A number is read from its decimal digits. -/
theorem number?_decimal (n : Nat) (rest : List Char) :
    number? (Nat.toDigits 10 n ++ '\n' :: rest)
      = (fitting? n).map fun n => (.integer n, '\n' :: rest) := by
  have hmoment := (plain_decimal n rest).moment?_eq_none
  obtain ⟨c, ds, hshape, hdigit, halone⟩ := decimal_eq_cons n
  have hminus : c ≠ '-' := ne_of_kind hdigit (by decide)
  have hplus : c ≠ '+' := ne_of_kind hdigit (by decide)
  apply number?_of_sign false hmoment
  · rw [hshape]
    simp [sign, hminus, hplus]
  · rw [hshape]
    rintro d r hbegin
    obtain ⟨rfl, htail⟩ := List.cons.inj hbegin
    rw [halone rfl] at htail
    exact (List.cons.inj htail).1.symm

/-- The negative of a number is read from a minus and its decimal digits. -/
theorem number?_minus_decimal (n : Nat) (rest : List Char) :
    number? ('-' :: Nat.toDigits 10 n ++ '\n' :: rest)
      = (fitting? (-n)).map fun n => (.integer n, '\n' :: rest) := by
  apply number?_of_sign true (moment?_minus _) rfl
  intro c r hbegin
  exact absurd (List.cons.inj hbegin).1 (by decide)

/-! ## Values -/

@[simp]
theorem lineEnd?_newline (rest : List Char) : lineEnd? ('\n' :: rest) = some rest := by
  have hblank : isBlank '\n' = false := by decide
  simp [lineEnd?, skipBlanks, hblank]

/-- The text behind an equals sign, up to the end of the line, is read as an item or refused, whatever
the lines after it are. -/
def Means (text : List Char) (item : Option Item) : Prop :=
  ∀ rest, ((value? depthLimit (skipBlanks (text ++ '\n' :: rest))).bind fun found =>
    (lineEnd? found.2).map (found.1, ·)) = item.map (·, rest)

/-- What begins like a number is read as one. -/
theorem value?_eq_number? {c : Char} (cs : List Char) (h : c.isDigit ∨ c = '-') :
    value? depthLimit (skipBlanks (c :: cs)) = number? (c :: cs) := by
  have hother (d : Char) (hdigit : d.isDigit = false) (hminus : d ≠ '-') : c ≠ d := by
    rintro rfl
    rcases h with h | h
    · exact ne_of_kind h hdigit rfl
    · exact hminus h
  have hbracket := hother '[' (by decide) (by decide)
  have hbrace := hother '\x7b' (by decide) (by decide)
  have hflag := hother 't' (by decide) (by decide)
  have hnoFlag := hother 'f' (by decide) (by decide)
  have hquote := hother '"' (by decide) (by decide)
  have hsingleQuote := hother '\'' (by decide) (by decide)
  have hspace := hother ' ' (by decide) (by decide)
  have htab := hother '\t' (by decide) (by decide)
  have hkept : skipBlanks (c :: cs) = c :: cs := by
    simp [skipBlanks, isBlank, hspace, htab]
  rw [hkept]
  simp [depthLimit, value?, scalar?, hbracket, hbrace, hflag, hnoFlag, hquote, hsingleQuote]

/-- Integers are read back.  An integer in decimal is read as itself if it fits 64 bits with a sign,
and is refused otherwise. -/
theorem means_integer (n : Int) : Means (toString n).toList ((fitting? n).map .integer) := by
  intro rest
  rw [Int.toString_eq_repr, Int.repr_eq_if]
  split
  next hpos =>
    have hread := number?_decimal n.toNat rest
    rw [Nat.toList_repr]
    obtain ⟨c, ds, hshape, hdigit, -⟩ := decimal_eq_cons n.toNat
    rw [hshape, List.cons_append] at hread ⊢
    rw [value?_eq_number? _ (.inl hdigit), hread, Int.toNat_of_nonneg hpos]
    cases fitting? n <;> simp
  next hneg =>
    have hread := number?_minus_decimal (-n).toNat rest
    rw [Int.toNat_of_nonneg (by omega), Int.neg_neg] at hread
    have hshape : ("-" ++ (-n).toNat.repr).toList = '-' :: Nat.toDigits 10 (-n).toNat := by simp
    rw [hshape, List.cons_append] at *
    rw [value?_eq_number? _ (.inr rfl), hread]
    cases fitting? n <;> simp

end PooledSessions.Toml
