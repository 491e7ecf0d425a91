import Mathlib.Data.List.Infix
import Mathlib.Tactic.Common

/-!
# The LIKE of SQL

In a pattern `%` stands for any text and `_` for any one character, and there is no escape. A pattern
without either matches itself and nothing else (`like_iff_of_isPlain`); a pattern with a wildcard
also matches the text in which its wildcards are exchanged (`like_map_swapWildcard`). Letter case is
a map of characters that leaves the two wildcards alone; texts are the same up to letter case when
they are mapped to one text, which is what a case-insensitive match of a plain text finds
(`insensitiveLike_iff_of_isPlain`).
-/

set_option autoImplicit false
set_option relaxedAutoImplicit false

namespace SharpArch.Foundation.SqlLike

/-- A text matches a pattern. -/
def like : List Char → List Char → Bool
  | [], text => text.isEmpty
  | symbol :: pattern, text =>
    if symbol = '%' then text.tails.any fun rest ↦ like pattern rest
    else
      match text with
      | [] => false
      | letter :: rest => (symbol == '_' || symbol == letter) && like pattern rest

/-- A text without wildcards. -/
def IsPlain (text : List Char) : Prop := ∀ symbol ∈ text, symbol ≠ '%' ∧ symbol ≠ '_'

theorem like_iff_of_isPlain {pattern : List Char} (hplain : IsPlain pattern) (text : List Char) :
    like pattern text = true ↔ text = pattern := by
  induction pattern generalizing text with
  | nil => simp [like]
  | cons symbol pattern ih =>
    obtain ⟨hpercent, hunderscore⟩ := hplain symbol List.mem_cons_self
    have hrest : IsPlain pattern := fun other hmem ↦ hplain other (List.mem_cons_of_mem _ hmem)
    cases text with
    | nil => simp [like, hpercent]
    | cons letter rest =>
      simp only [like, if_neg hpercent, beq_eq_false_iff_ne.mpr hunderscore, Bool.false_or,
        Bool.and_eq_true, beq_iff_eq, ih hrest, List.cons.injEq]
      exact and_congr_left' eq_comm

/-! ### Wildcards -/

/-- The other wildcard for a wildcard. -/
def swapWildcard (symbol : Char) : Char :=
  if symbol = '%' then '_' else if symbol = '_' then '%' else symbol

theorem swapWildcard_eq_self_iff (symbol : Char) :
    swapWildcard symbol = symbol ↔ symbol ≠ '%' ∧ symbol ≠ '_' := by
  unfold swapWildcard
  split_ifs with hpercent hunderscore
  · subst hpercent
    decide
  · subst hunderscore
    decide
  · exact ⟨fun _ ↦ ⟨hpercent, hunderscore⟩, fun _ ↦ rfl⟩

/-- A pattern matches the text in which its wildcards are exchanged: `%` matches `_`, and `_` matches
`%`. -/
theorem like_map_swapWildcard (pattern : List Char) :
    like pattern (pattern.map swapWildcard) = true := by
  induction pattern with
  | nil => rfl
  | cons symbol pattern ih =>
    rw [List.map_cons, like]
    split_ifs with hpercent
    · refine List.any_eq_true.mpr ⟨pattern.map swapWildcard, ?_, ih⟩
      exact (List.mem_tails _ _).mpr (List.suffix_cons _ _)
    · have hletter : (symbol == '_' || symbol == swapWildcard symbol) = true := by
        by_cases hunderscore : symbol = '_'
        · simp [hunderscore]
        · simp [(swapWildcard_eq_self_iff symbol).mpr ⟨hpercent, hunderscore⟩]
      simp only [hletter, ih, Bool.and_self]

/-- A text with a wildcard is changed when its wildcards are exchanged. -/
theorem isPlain_of_map_swapWildcard {text : List Char} (hsame : text.map swapWildcard = text) :
    IsPlain text := by
  intro symbol hmem
  have hself : ∀ letter ∈ text, swapWildcard letter = id letter :=
    List.map_inj_left.mp (hsame.trans (List.map_id text).symm)
  exact (swapWildcard_eq_self_iff symbol).mp (hself symbol hmem)

/-! ### Letter case -/

/-- The lower case of characters. -/
structure LetterCase where
  lower : Char → Char
  lower_percent : ∀ symbol, lower symbol = '%' ↔ symbol = '%'
  lower_underscore : ∀ symbol, lower symbol = '_' ↔ symbol = '_'

namespace LetterCase

theorem toLower_ne_of_upper {symbol target : Char}
    (hupper : symbol.val ≥ 'A'.val ∧ symbol.val ≤ 'Z'.val) (htarget : target.val < 'a'.val) :
    symbol.toLower ≠ target := by
  intro heq
  have hval : symbol.toLower.val = symbol.val + ('a'.val - 'A'.val) :=
    congrArg Char.val (dif_pos hupper)
  rw [heq] at hval
  grind

theorem toLower_eq_iff {symbol target : Char} (htarget : target.val < 'A'.val ∨ target = '_') :
    symbol.toLower = target ↔ symbol = target := by
  by_cases hupper : symbol.val ≥ 'A'.val ∧ symbol.val ≤ 'Z'.val
  · have hbelow : target.val < 'a'.val ∧ ¬ (target.val ≥ 'A'.val ∧ target.val ≤ 'Z'.val) := by
      rcases htarget with hsmall | rfl
      · constructor <;> grind
      · decide
    refine iff_of_false (toLower_ne_of_upper hupper hbelow.1) ?_
    rintro rfl
    exact hbelow.2 hupper
  · have hsame : symbol.toLower = symbol := dif_neg hupper
    rw [hsame]

/-- The lower case of ASCII letters. -/
def ascii : LetterCase where
  lower := Char.toLower
  lower_percent _ := toLower_eq_iff (.inl (by decide))
  lower_underscore _ := toLower_eq_iff (.inr rfl)

/-- Letter case is told apart. -/
def ordinal : LetterCase where
  lower := id
  lower_percent _ := Iff.rfl
  lower_underscore _ := Iff.rfl

variable (letterCase : LetterCase)

/-- A text in lower case. -/
def lowered (text : String) : List Char := text.toList.map letterCase.lower

/-- The same text up to letter case. -/
def same (first second : String) : Bool := letterCase.lowered first = letterCase.lowered second

/-- `lower(text) LIKE lower(pattern)`. -/
def insensitiveLike (text pattern : String) : Bool :=
  like (letterCase.lowered pattern) (letterCase.lowered text)

theorem isPlain_lowered {text : String} (hplain : IsPlain text.toList) :
    IsPlain (letterCase.lowered text) := by
  intro symbol hmem
  obtain ⟨letter, hletter, rfl⟩ := List.mem_map.mp hmem
  obtain ⟨hpercent, hunderscore⟩ := hplain letter hletter
  exact ⟨mt (letterCase.lower_percent letter).mp hpercent,
    mt (letterCase.lower_underscore letter).mp hunderscore⟩

/-- A case-insensitive match of a plain text finds that text up to letter case. -/
theorem insensitiveLike_iff_of_isPlain {pattern : String} (hplain : IsPlain pattern.toList)
    (text : String) :
    letterCase.insensitiveLike text pattern = true ↔ letterCase.same pattern text = true := by
  rw [insensitiveLike, like_iff_of_isPlain (letterCase.isPlain_lowered hplain)]
  rw [same, decide_eq_true_eq, eq_comm]

theorem lower_swapWildcard (symbol : Char) :
    letterCase.lower (swapWildcard symbol) = swapWildcard (letterCase.lower symbol) := by
  by_cases hpercent : symbol = '%'
  · subst hpercent
    rw [(letterCase.lower_percent '%').mpr rfl]
    exact (letterCase.lower_underscore '_').mpr rfl
  by_cases hunderscore : symbol = '_'
  · subst hunderscore
    rw [(letterCase.lower_underscore '_').mpr rfl]
    exact (letterCase.lower_percent '%').mpr rfl
  · rw [(swapWildcard_eq_self_iff symbol).mpr ⟨hpercent, hunderscore⟩, eq_comm,
      swapWildcard_eq_self_iff]
    exact ⟨mt (letterCase.lower_percent symbol).mp hpercent,
      mt (letterCase.lower_underscore symbol).mp hunderscore⟩

/-- The text with its wildcards exchanged. -/
def exchanged (text : String) : String := String.ofList (text.toList.map swapWildcard)

theorem lowered_exchanged (text : String) :
    letterCase.lowered (exchanged text) = (letterCase.lowered text).map swapWildcard := by
  simp only [lowered, exchanged, String.toList_ofList, List.map_map]
  exact List.map_congr_left fun symbol _ ↦ letterCase.lower_swapWildcard symbol

/-- A case-insensitive match of a text finds the text with its wildcards exchanged. -/
theorem insensitiveLike_exchanged (text : String) :
    letterCase.insensitiveLike (exchanged text) text = true := by
  rw [insensitiveLike, lowered_exchanged]
  exact like_map_swapWildcard _

/-- Only a text without wildcards is the same as the text with its wildcards exchanged. -/
theorem isPlain_of_same_exchanged {text : String}
    (hsame : letterCase.same text (exchanged text) = true) : IsPlain text.toList := by
  rw [same, decide_eq_true_eq, lowered_exchanged] at hsame
  have hplain := isPlain_of_map_swapWildcard hsame.symm
  intro symbol hmem
  have hlowered := hplain (letterCase.lower symbol) (List.mem_map_of_mem hmem)
  exact ⟨mt (letterCase.lower_percent symbol).mpr hlowered.1,
    mt (letterCase.lower_underscore symbol).mpr hlowered.2⟩

theorem same_self (text : String) : letterCase.same text text = true := by
  simp only [same, decide_true]

/-- Texts that are the same are the same up to letter case. -/
theorem same_of_ordinal {first second : String} (hsame : ordinal.same first second = true) :
    letterCase.same first second = true := by
  have hsymbols : first.toList = second.toList := by simpa [same, lowered, ordinal] using hsame
  rw [same, decide_eq_true_eq, lowered, lowered, hsymbols]

end LetterCase

end SharpArch.Foundation.SqlLike
