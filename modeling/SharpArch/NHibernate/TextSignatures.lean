import SharpArch.NHibernate.FalseDuplicates

/-!
# Signatures of texts

The signature of a class may consist of texts only, its own or those of a value object. For such an
entity the checker should find the rows with another identifier that hold the same texts up to letter
case, and null where the entity holds null (`Entity.SameTexts`).

The criterion of a text is a pattern match. A text without wildcards matches itself only, so that the
verdict is right over every table. A text with a wildcard also matches the text in which its wildcards
are exchanged, so that the verdict is wrong over some table (`exists_wrong_verdict`). Hence
`textVerdicts_iff`: the verdict is right over every table exactly when no text of the signature holds a
wildcard.
-/

set_option autoImplicit false
set_option relaxedAutoImplicit false

namespace SharpArch.NHibernate

open Foundation.SqlLike Platform.SystemTransactions

variable {Property Key Plain : Type}

/-! ### Texts -/

/-- A column holds the same text up to letter case, or null for null. -/
def SimpleType.sameText [DecidableEq Key] [DecidableEq Plain] (letterCase : LetterCase) :
    (type : SimpleType) → type.Value Plain → SqlValue Key Plain → Bool
  | .string, some text, .text stored => letterCase.same text stored
  | .string, none, column => column = .null
  | _, _, _ => false

/-- The texts of a property, itself or those of a value object that is not null. -/
def PropertyType.IsTextual : (type : PropertyType Property) → type.Value (Referred Key) Plain → Prop
  | .valueObject components, some _ =>
    ∀ component ∈ components.signature, (components.component component).type = .string
  | .simple type, _ => type = .string
  | _, _ => False

/-- The columns of a property hold the same texts. -/
def PropertyType.SameTexts [DecidableEq Key] [DecidableEq Plain] (letterCase : LetterCase) :
    (type : PropertyType Property) → type.Value (Referred Key) Plain →
      (Column Property → SqlValue Key Plain) → Prop
  | .valueObject components, some values, column => ∀ component ∈ components.signature,
    (components.component component).type.sameText letterCase (values component)
      (column (.component component)) = true
  | .simple type, value, column => type.sameText letterCase value (column .whole) = true
  | _, _, _ => False

/-- The value with the wildcards of its texts exchanged. -/
def SimpleType.exchanged : (type : SimpleType) → type.Value Plain → type.Value Plain
  | .string, value => value.map LetterCase.exchanged
  | _, value => value

/-- A stored value that holds the texts of a value with their wildcards exchanged. -/
def PropertyType.exchanged :
    (type : PropertyType Property) → type.Value (Referred Key) Plain → type.Value Key Plain
  | .entity, _ => none
  | .valueObject components, values => values.map fun values component ↦
    (components.component component).type.exchanged (values component)
  | .simple type, value => type.exchanged value

section Texts

variable [DecidableEq Key] [DecidableEq Plain] {letterCase : LetterCase}

/-- The criterion of a text without wildcards accepts the columns that hold the same text. -/
theorem accepts_iff_sameText {type : SimpleType} (htext : type = .string) {value : type.Value Plain}
    (hplain : type.IsPlain value) (column : SqlValue Key Plain) :
    type.accepts letterCase value column = type.sameText letterCase value column := by
  subst htext
  rcases value with _ | text
  · rfl
  · cases column with
    | text stored =>
      exact Bool.eq_iff_iff.mpr (letterCase.insensitiveLike_iff_of_isPlain hplain stored)
    | null => rfl
    | key id => rfl
    | integer number => rfl
    | dateTime ticks => rfl
    | plain stored => rfl

/-- The criterion of a text accepts the text with its wildcards exchanged. -/
theorem accepts_exchanged {type : SimpleType} (htext : type = .string) (value : type.Value Plain) :
    type.accepts letterCase value (type.store (type.exchanged value) : SqlValue Key Plain) = true := by
  subst htext
  rcases value with _ | text
  · simp [SimpleType.exchanged, SimpleType.store, SimpleType.accepts, SqlValue.ofOption]
  · exact letterCase.insensitiveLike_exchanged text

/-- Only a text without wildcards is the same as the text with its wildcards exchanged. -/
theorem isPlain_of_sameText_exchanged {type : SimpleType} {value : type.Value Plain}
    (hsame : type.sameText letterCase value
      (type.store (type.exchanged value) : SqlValue Key Plain) = true) : type.IsPlain value := by
  cases type with
  | string =>
    rcases value with _ | text
    · trivial
    · exact letterCase.isPlain_of_same_exchanged hsame
  | enumeration underlying => trivial
  | dateTime => trivial
  | valueType nullable => cases nullable <;> trivial
  | other => trivial

variable {type : PropertyType Property} {value : type.Value (Referred Key) Plain}

omit [DecidableEq Key] [DecidableEq Plain] in
/-- Criteria can be made for texts. -/
theorem supported_of_isTextual (htextual : type.IsTextual value) : type.Supported value := by
  cases type with
  | entity => exact htextual.elim
  | valueObject components =>
    rcases value with _ | values
    · exact htextual.elim
    · intro component hmem
      rw [htextual component hmem]
      trivial
  | simple type =>
    obtain rfl : type = .string := htextual
    trivial

/-- The criteria of texts without wildcards accept the columns that hold the same texts. -/
theorem accepts_iff_sameTexts (htextual : type.IsTextual value) (hplain : type.IsPlain value)
    (column : Column Property → SqlValue Key Plain) :
    type.Accepts letterCase value column ↔ type.SameTexts letterCase value column := by
  cases type with
  | entity => exact htextual.elim
  | valueObject components =>
    rcases value with _ | values
    · exact htextual.elim
    · refine forall₂_congr fun component hmem ↦ ?_
      rw [accepts_iff_sameText (htextual component hmem) (hplain component hmem)]
  | simple type =>
    show type.accepts letterCase value (column .whole) = true ↔ _
    rw [accepts_iff_sameText htextual hplain]
    rfl

/-- The criteria of texts accept the texts with their wildcards exchanged. -/
theorem accepts_exchanged_texts (htextual : type.IsTextual value) :
    type.Accepts letterCase value (type.store (type.exchanged value)) := by
  cases type with
  | entity => exact htextual.elim
  | valueObject components =>
    rcases value with _ | values
    · exact htextual.elim
    · exact fun component hmem ↦ accepts_exchanged (htextual component hmem) _
  | simple type => exact accepts_exchanged htextual value

/-- Only texts without wildcards are the same as the texts with their wildcards exchanged. -/
theorem isPlain_of_sameTexts_exchanged
    (hsame : type.SameTexts letterCase value (type.store (type.exchanged value))) :
    type.IsPlain value := by
  cases type with
  | entity => exact hsame.elim
  | valueObject components =>
    rcases value with _ | values
    · exact hsame.elim
    · exact fun component hmem ↦ isPlain_of_sameText_exchanged (hsame component hmem)
  | simple type => exact isPlain_of_sameText_exchanged hsame

end Texts

/-! ### The checker -/

section Checker

variable [DecidableEq Key] [DecidableEq Plain] (letterCase : LetterCase)
  {entityType : EntityClass Property}

/-- The signature of the entity consists of texts. -/
def Entity.IsTextual (entity : Entity entityType Key Plain) : Prop :=
  ∀ property ∈ entityType.signature,
    (entityType.property property).type.IsTextual (entity.values property)

/-- A row with another identifier holds the texts of an entity up to letter case, and null where the
entity holds null. -/
def Entity.SameTexts (entity : Entity entityType Key Plain) (row : Row entityType Key Plain) : Prop :=
  some row.id ≠ entity.identity.getId ∧ ∀ property ∈ entityType.signature,
    (entityType.property property).type.SameTexts letterCase (entity.values property)
      fun column ↦ row.column (.property property column)

/-- Over every table the checker reports a duplicate exactly when a row holds the same texts. -/
def Entity.TextVerdicts (entity : Entity entityType Key Plain) : Prop :=
  ∀ session : Session entityType Key Plain,
    (doesDuplicateExistWithTypedIdOf letterCase (some entity) session).1 = .ok true ↔
      ∃ row ∈ session.stored, entity.SameTexts letterCase row

variable {letterCase} {entity : Entity entityType Key Plain}

/-- Without wildcards the entity selects the rows with the same texts. -/
theorem selects_iff_sameTexts (htextual : entity.IsTextual) (hplain : entity.IsPlain)
    (row : Row entityType Key Plain) :
    entity.Selects letterCase row ↔ entity.SameTexts letterCase row :=
  and_congr_right' (forall₂_congr fun property hmem ↦
    accepts_iff_sameTexts (htextual property hmem) (hplain property hmem) _)

/-- With a wildcard in its signature an entity selects a row that holds other texts. -/
theorem exists_wrong_verdict [Nontrivial Key] (letterCase : LetterCase)
    (htextual : entity.IsTextual) (hplain : ¬ entity.IsPlain) :
    ∃ row : Row entityType Key Plain,
      entity.Selects letterCase row ∧ ¬ entity.SameTexts letterCase row := by
  obtain ⟨id, hid⟩ := exists_other_id entity
  refine ⟨⟨id, fun property ↦ (entityType.property property).type.exchanged (entity.values property)⟩,
    ⟨hid, fun property hmem ↦ accepts_exchanged_texts (htextual property hmem)⟩, ?_⟩
  rintro ⟨-, hsame⟩
  exact hplain fun property hmem ↦ isPlain_of_sameTexts_exchanged (hsame property hmem)

/-- An entity whose signature consists of texts: over every table the checker reports a duplicate
exactly when a row with another identifier holds the same texts up to letter case, if and only if
no text of the signature holds `%` or `_`. -/
theorem textVerdicts_iff [Nontrivial Key] (letterCase : LetterCase)
    (entity : Entity entityType Key Plain) (htextual : entity.IsTextual) :
    entity.TextVerdicts letterCase ↔ entity.IsPlain := by
  have hsupported : entity.Supported := fun property hmem ↦
    supported_of_isTextual (htextual property hmem)
  constructor
  · intro hverdicts
    by_contra hplain
    obtain ⟨row, hselects, hother⟩ := exists_wrong_verdict letterCase htextual hplain
    have hreported := (doesDuplicateExist_eq_true_iff letterCase entity ⟨.auto, [row], []⟩).mpr
      ⟨hsupported, row, List.mem_singleton_self row, hselects⟩
    obtain ⟨found, hfound, hsame⟩ := (hverdicts _).mp hreported
    rw [List.mem_singleton.mp hfound] at hsame
    exact hother hsame
  · intro hplain session
    rw [doesDuplicateExist_eq_true_iff, and_iff_right hsupported]
    simp only [selects_iff_sameTexts htextual hplain]

/-- A customer called `ann`. -/
theorem textVerdicts_ann :
    let customerClass : EntityClass Unit := ⟨"Customer", [()], fun _ ↦ ⟨"Name", .simple .string⟩⟩
    let ann : Entity customerClass ℕ ℕ := ⟨⟨none, none⟩, fun _ ↦ some "ann"⟩
    ann.IsTextual ∧ (ann.TextVerdicts .ascii ↔ ann.IsPlain) := by
  intro customerClass ann
  have htextual : ann.IsTextual := fun _ _ ↦ rfl
  exact ⟨htextual, textVerdicts_iff .ascii ann htextual⟩

/-- A customer called `a_b` is reported as a duplicate of a stored one called `axb`. -/
theorem wildcard_reported :
    let customerClass : EntityClass Unit := ⟨"Customer", [()], fun _ ↦ ⟨"Name", .simple .string⟩⟩
    let customer : Entity customerClass ℕ ℕ := ⟨⟨none, none⟩, fun _ ↦ some "a_b"⟩
    let session : Session customerClass ℕ ℕ := ⟨.auto, [⟨1, fun _ ↦ some "axb"⟩], []⟩
    (doesDuplicateExistWithTypedIdOf .ascii (some customer) session).1 = .ok true ∧
      ¬ customer.TextVerdicts .ascii := by
  intro customerClass customer session
  have hreported : (doesDuplicateExistWithTypedIdOf .ascii (some customer) session).1 = .ok true := by
    decide
  refine ⟨hreported, fun hverdicts ↦ ?_⟩
  obtain ⟨row, hmem, -, hsame⟩ := (hverdicts session).mp hreported
  obtain rfl := List.mem_singleton.mp hmem
  have hname : LetterCase.ascii.same "a_b" "axb" = true := hsame () List.mem_cons_self
  exact absurd hname (by decide)

end Checker

end SharpArch.NHibernate
