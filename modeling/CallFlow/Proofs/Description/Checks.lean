/-
**What a description must fulfil.**

Whatever a description mentions must be declared in it. That is a list of checks, one for each place
where a class is named, a reference stands or a method is chosen; the order of the list is the order in
which the loader comes to the places.

* `Description.WellReferenced`: everything that is mentioned is declared.
* `Description.Fails`: a check fails, with what is wrong.
* `Description.FirstFails`: a check is the first one of a list that fails.
* `Description.wellReferenced_iff`: a description is well referenced if none of its checks fails.
-/

import CallFlow.Proofs.Description.Lookup

namespace CallFlow

namespace Description

variable (description : Description)

/-! ### Well referenced descriptions -/

/-- What a statement mentions is declared. -/
inductive WellReferencedStatement : Statement → Prop where
  | new {name : String} {id : ClassId} (named : description.Named name id) :
      WellReferencedStatement (.new name)
  | newArray (element : String) : WellReferencedStatement (.newArray element)
  | store {reference : String} {field : FieldId} (referred : description.FieldReferred reference field) :
      WellReferencedStatement (.store reference)
  | load {reference : String} {field : FieldId} (referred : description.FieldReferred reference field) :
      WellReferencedStatement (.load reference)
  | invoke (kind method : String) {className : String} {id : ClassId}
      (named : description.Named className id) : WellReferencedStatement (.invoke kind className method)
  | other : WellReferencedStatement .other

/-- Class names are distinct, and everything that is mentioned is declared. -/
structure WellReferenced : Prop where
  distinct : (description.classes.map Class.name).Nodup
  supertypes : ∀ info ∈ description.classes, ∀ name ∈ info.superclass.toList ++ info.interfaces,
    ∃ id, description.Named name id
  statements : ∀ info ∈ description.classes, ∀ method ∈ info.methods, ∀ statement ∈ method.body,
    description.WellReferencedStatement statement
  entry : ∀ name, description.entry = some name → ∃ method, description.MethodReferred name method

/-! ### Checks -/

/-- Something that is looked at. -/
inductive Check where
  /-- The name of a class, after the names of the classes before it. -/
  | className (earlier : List String) (name : String)
  | supertype (name referrer : String)
  /-- A statement of the method with a full name. -/
  | statement (method : String) (statement : Statement)
  | entry (name : String)

/-- What is wrong with a reference to a field. -/
inductive ReferenceFails (reference : String) : LoadError → Prop where
  | undotted (absent : '.' ∉ reference.toList) :
      ReferenceFails reference (.malformedField reference)
  | undeclared {owner name : String} (splits : SplitsAtDot reference owner name)
      (unnamed : ∀ id, ¬ description.Named owner id) :
      ReferenceFails reference (.unknownClass owner reference)
  | lacking {owner name : String} {id : ClassId} (splits : SplitsAtDot reference owner name)
      (named : description.Named owner id) (lacks : description.LacksField name id) :
      ReferenceFails reference (.unknownField reference)
  | endless {owner name : String} {id : ClassId} (splits : SplitsAtDot reference owner name)
      (named : description.Named owner id)
      (goesOn : ∀ id, description.Named owner id → ¬ description.LacksField name id ∧
        ∀ field, ¬ description.FindsField name id field) :
      ReferenceFails reference (.endlessField reference)

/-- What is wrong with a statement. -/
inductive StatementFails : Statement → LoadError → Prop where
  | new {name : String} (unnamed : ∀ id, ¬ description.Named name id) :
      StatementFails (.new name) (.unknownClass name "new")
  | store {reference : String} {error : LoadError} (fails : description.ReferenceFails reference error) :
      StatementFails (.store reference) error
  | load {reference : String} {error : LoadError} (fails : description.ReferenceFails reference error) :
      StatementFails (.load reference) error
  | invoke (kind method : String) {className : String} (unnamed : ∀ id, ¬ description.Named className id) :
      StatementFails (.invoke kind className method) (.unknownClass className "invoke")

/-- A check fails, with what is wrong. -/
inductive Fails : Check → LoadError → Prop where
  | className {earlier : List String} {name : String} (taken : name ∈ earlier) :
      Fails (.className earlier name) (.duplicateClass name)
  | supertype {name : String} (referrer : String) (unnamed : ∀ id, ¬ description.Named name id) :
      Fails (.supertype name referrer) (.unknownClass name referrer)
  | statement (method : String) {statement : Statement} {cause : LoadError}
      (fails : description.StatementFails statement cause) :
      Fails (.statement method statement) (.inMethod method cause)
  | entry {name : String} (unresolved : ∀ method, ¬ description.MethodReferred name method) :
      Fails (.entry name) (.unknownMethod name)

/-- A check is the first one of a list that fails, with what is wrong. -/
inductive FirstFails : List Check → LoadError → Prop where
  | here {check : Check} {later : List Check} {error : LoadError} (fails : description.Fails check error) :
      FirstFails (check :: later) error
  | later {check : Check} {later : List Check} {error : LoadError}
      (passes : ∀ error, ¬ description.Fails check error) (rest : FirstFails later error) :
      FirstFails (check :: later) error

/-! ### The checks of a description -/

/-- The names of classes, each after those before it. -/
def nameChecks : List String → List Class → List Check
  | _, [] => []
  | earlier, info :: rest => .className earlier info.name :: nameChecks (earlier ++ [info.name]) rest

/-- The supertypes of a class, the superclass first. -/
def supertypeChecks (info : Class) : List Check :=
  (info.superclass.toList ++ info.interfaces).map fun name => .supertype name info.name

/-- The statements of a method of a class. -/
def bodyChecks (info : Class) (method : Method) : List Check :=
  method.body.map (.statement (info.name ++ "." ++ method.signature))

/-- Everything that is looked at, in this order: the names of the classes, their supertypes, the
statements of the methods, the entry. -/
def checks : List Check :=
  nameChecks [] description.classes ++ description.classes.flatMap supertypeChecks ++
    (description.classes.flatMap fun info => info.methods.flatMap (bodyChecks info)) ++
    description.entry.toList.map .entry

variable {description}

/-! ### One check fails in one way -/

theorem ReferenceFails.unique {reference : String} {first second : LoadError}
    (fails : description.ReferenceFails reference first)
    (others : description.ReferenceFails reference second) : first = second := by
  cases fails with
  | undotted absent =>
    cases others with
    | undotted => rfl
    | undeclared splits | lacking splits | endless splits => exact absurd splits.dotted absent
  | undeclared splits unnamed =>
    cases others with
    | undotted absent => exact absurd splits.dotted absent
    | undeclared other =>
      obtain ⟨rfl, _⟩ := splits.unique other
      rfl
    | lacking other named | endless other named =>
      obtain ⟨rfl, _⟩ := splits.unique other
      exact absurd named (unnamed _)
  | lacking splits named lacks =>
    cases others with
    | undotted absent => exact absurd splits.dotted absent
    | undeclared other unnamed =>
      obtain ⟨rfl, _⟩ := splits.unique other
      exact absurd named (unnamed _)
    | lacking => rfl
    | endless other _ goesOn =>
      obtain ⟨rfl, rfl⟩ := splits.unique other
      exact absurd lacks (goesOn _ named).1
  | endless splits named goesOn =>
    cases others with
    | undotted absent => exact absurd splits.dotted absent
    | undeclared other unnamed =>
      obtain ⟨rfl, _⟩ := splits.unique other
      exact absurd named (unnamed _)
    | lacking other named lacks =>
      obtain ⟨rfl, rfl⟩ := splits.unique other
      exact absurd lacks (goesOn _ named).1
    | endless => rfl

theorem StatementFails.unique {statement : Statement} {first second : LoadError}
    (fails : description.StatementFails statement first)
    (others : description.StatementFails statement second) : first = second := by
  cases fails with
  | new => cases others; rfl
  | store fails =>
    cases others with
    | store other => exact fails.unique other
  | load fails =>
    cases others with
    | load other => exact fails.unique other
  | invoke => cases others; rfl

theorem Fails.unique {check : Check} {first second : LoadError} (fails : description.Fails check first)
    (others : description.Fails check second) : first = second := by
  cases fails with
  | className => cases others; rfl
  | supertype => cases others; rfl
  | statement method fails =>
    cases others with
    | statement _ other => rw [fails.unique other]
  | entry => cases others; rfl

/-- **A list of checks fails in one way.** -/
theorem FirstFails.unique {checks : List Check} {first second : LoadError}
    (fails : description.FirstFails checks first) (others : description.FirstFails checks second) :
    first = second := by
  induction fails with
  | here fails =>
    cases others with
    | here other => exact fails.unique other
    | later passes _ => exact absurd fails (passes _)
  | later passes rest hyp =>
    cases others with
    | here other => exact absurd other (passes _)
    | later _ other => exact hyp other

/-- The first failure is in the first list, unless nothing fails there. -/
theorem firstFails_append {checks more : List Check} {error : LoadError} :
    description.FirstFails (checks ++ more) error ↔ description.FirstFails checks error ∨
      (∀ error, ¬ description.FirstFails checks error) ∧ description.FirstFails more error := by
  induction checks with
  | nil => exact ⟨fun fails => .inr ⟨nofun, fails⟩, fun fails => fails.resolve_left nofun |>.2⟩
  | cons check rest hyp =>
    constructor
    · intro fails
      cases fails with
      | here fails => exact .inl (.here fails)
      | later passes fails =>
        rcases hyp.mp fails with first | ⟨none, fails⟩
        · exact .inl (.later passes first)
        · refine .inr ⟨fun error first => ?_, fails⟩
          cases first with
          | here fails => exact passes error fails
          | later _ first => exact none error first
    · rintro (first | ⟨none, fails⟩)
      · cases first with
        | here fails => exact .here fails
        | later passes first => exact .later passes (hyp.mpr (.inl first))
      · have passes error : ¬ description.Fails check error := fun fails => none error (.here fails)
        exact .later passes
          (hyp.mpr (.inr ⟨fun error first => none error (.later passes first), fails⟩))

/-- No check is the first one to fail if all checks pass. -/
theorem not_firstFails_iff {checks : List Check} : (∀ error, ¬ description.FirstFails checks error) ↔
    ∀ check ∈ checks, ∀ error, ¬ description.Fails check error := by
  induction checks with
  | nil => exact ⟨fun _ => nofun, fun _ => nofun⟩
  | cons check rest hyp =>
    rw [List.forall_mem_cons, ← hyp]
    constructor
    · intro none
      have passes error : ¬ description.Fails check error := fun fails => none error (.here fails)
      exact ⟨passes, fun error fails => none error (.later passes fails)⟩
    · rintro ⟨passes, none⟩ error fails
      cases fails with
      | here fails => exact passes error fails
      | later _ fails => exact none error fails

/-! ### What it means that checks pass -/

/-- The names of classes pass if they are distinct. -/
theorem nameChecks_pass {classes : List Class} {earlier : List String} :
    (∀ check ∈ nameChecks earlier classes, ∀ error, ¬ description.Fails check error) ↔
      (classes.map Class.name).Nodup ∧ ∀ info ∈ classes, info.name ∉ earlier := by
  induction classes generalizing earlier with
  | nil => exact ⟨fun _ => ⟨List.nodup_nil, nofun⟩, fun _ => nofun⟩
  | cons first rest hyp =>
    have fresh : (∀ error, ¬ description.Fails (.className earlier first.name) error) ↔
        first.name ∉ earlier := by
      refine ⟨fun passes taken => passes _ (.className taken), fun fresh error fails => ?_⟩
      cases fails with
      | className taken => exact fresh taken
    rw [nameChecks, List.forall_mem_cons, fresh, hyp, List.map_cons, List.nodup_cons,
      List.forall_mem_cons]
    constructor
    · rintro ⟨fresh, distinct, others⟩
      refine ⟨⟨fun among => ?_, distinct⟩, fresh, fun info among taken => ?_⟩
      · obtain ⟨info, inRest, same⟩ := List.mem_map.mp among
        exact others info inRest (List.mem_append_right _ (List.mem_singleton.mpr same))
      · exact others info among (List.mem_append_left _ taken)
    · rintro ⟨⟨once, distinct⟩, fresh, others⟩
      refine ⟨fresh, distinct, fun info among taken => ?_⟩
      rcases List.mem_append.mp taken with before | first
      · exact others info among before
      · exact once (List.mem_singleton.mp first ▸ List.mem_map_of_mem among)

theorem supertype_passes {name referrer : String} :
    (∀ error, ¬ description.Fails (.supertype name referrer) error) ↔
      ∃ id, description.Named name id := by
  constructor
  · intro passes
    by_contra unnamed
    exact passes _ (.supertype referrer (not_exists.mp unnamed))
  · rintro ⟨id, named⟩ error ⟨⟩
    next unnamed => exact unnamed id named

theorem entry_passes {name : String} : (∀ error, ¬ description.Fails (.entry name) error) ↔
    ∃ method, description.MethodReferred name method := by
  constructor
  · intro passes
    by_contra unresolved
    exact passes _ (.entry (not_exists.mp unresolved))
  · rintro ⟨method, referred⟩ error ⟨⟩
    next unresolved => exact unresolved method referred

section Distinct

variable (distinct : (description.classes.map Class.name).Nodup)
include distinct

/-- **A reference to a field is right or wrong.** -/
theorem reference_passes {reference : String} :
    (∀ error, ¬ description.ReferenceFails reference error) ↔
      ∃ field, description.FieldReferred reference field := by
  constructor
  · intro passes
    by_contra unreferred
    cases parts : Text.splitAtLast '.' reference.toList with
    | none => exact passes _ (.undotted (Text.splitAtLast_eq_none_iff.mp parts))
    | some pair =>
      have splits := splitsAtDot_of_splitAtLast parts
      by_cases declared : ∃ id, description.Named (String.ofList pair.1) id
      · obtain ⟨id, named⟩ := declared
        by_cases lacks : description.LacksField (String.ofList pair.2) id
        · exact passes _ (.lacking splits named lacks)
        · refine passes _ (.endless splits named fun other others => ?_)
          obtain rfl := named.unique distinct others
          exact ⟨lacks, fun field finds => unreferred ⟨field, _, _, id, splits, named, finds⟩⟩
      · exact passes _ (.undeclared splits (not_exists.mp declared))
  · rintro ⟨field, owner, name, id, splits, named, finds⟩ error fails
    cases fails with
    | undotted absent => exact absent splits.dotted
    | undeclared other unnamed =>
      obtain ⟨rfl, rfl⟩ := splits.unique other
      exact unnamed id named
    | lacking other others lacks =>
      obtain ⟨rfl, rfl⟩ := splits.unique other
      obtain rfl := named.unique distinct others
      exact finds.not_lacks distinct lacks
    | endless other _ goesOn =>
      obtain ⟨rfl, rfl⟩ := splits.unique other
      exact (goesOn id named).2 field finds

theorem statement_passes {method : String} {statement : Statement} :
    (∀ error, ¬ description.Fails (.statement method statement) error) ↔
      description.WellReferencedStatement statement := by
  constructor
  · intro passes
    have passes cause : ¬ description.StatementFails statement cause := fun fails =>
      passes _ (.statement method fails)
    cases statement with
    | new name =>
      by_contra undeclared
      exact passes _ (.new fun id named => undeclared (.new named))
    | newArray element => exact .newArray element
    | store reference =>
      obtain ⟨field, referred⟩ := (reference_passes distinct).mp fun error fails =>
        passes error (.store fails)
      exact .store referred
    | load reference =>
      obtain ⟨field, referred⟩ := (reference_passes distinct).mp fun error fails =>
        passes error (.load fails)
      exact .load referred
    | invoke kind className text =>
      by_contra undeclared
      exact passes _ (.invoke kind text fun id named => undeclared (.invoke kind text named))
    | other => exact .other
  · intro wellReferenced error fails
    cases fails with
    | statement _ fails =>
      cases fails with
      | new unnamed =>
        cases wellReferenced with
        | new named => exact unnamed _ named
      | store fails =>
        cases wellReferenced with
        | store referred => exact (reference_passes distinct).mpr ⟨_, referred⟩ _ fails
      | load fails =>
        cases wellReferenced with
        | load referred => exact (reference_passes distinct).mpr ⟨_, referred⟩ _ fails
      | invoke _ _ unnamed =>
        cases wellReferenced with
        | invoke _ _ named => exact unnamed _ named

end Distinct

/-- **A description is well referenced if none of its checks fails.** -/
theorem wellReferenced_iff : description.WellReferenced ↔
    ∀ error, ¬ description.FirstFails description.checks error := by
  have names : (∀ check ∈ nameChecks [] description.classes, ∀ error,
      ¬ description.Fails check error) ↔ (description.classes.map Class.name).Nodup :=
    nameChecks_pass.trans (and_iff_left fun _ _ => List.not_mem_nil)
  have supertypes : (∀ check ∈ description.classes.flatMap supertypeChecks, ∀ error,
      ¬ description.Fails check error) ↔ ∀ info ∈ description.classes,
        ∀ name ∈ info.superclass.toList ++ info.interfaces, ∃ id, description.Named name id := by
    unfold supertypeChecks
    simp only [List.forall_mem_flatMap, List.forall_mem_map, supertype_passes]
  have statements (distinct : (description.classes.map Class.name).Nodup) :
      (∀ check ∈ description.classes.flatMap fun info => info.methods.flatMap (bodyChecks info),
        ∀ error, ¬ description.Fails check error) ↔ ∀ info ∈ description.classes,
          ∀ method ∈ info.methods, ∀ statement ∈ method.body,
            description.WellReferencedStatement statement := by
    unfold bodyChecks
    simp only [List.forall_mem_flatMap, List.forall_mem_map, statement_passes distinct]
  have entry : (∀ check ∈ description.entry.toList.map Check.entry, ∀ error,
      ¬ description.Fails check error) ↔ ∀ name, description.entry = some name →
        ∃ method, description.MethodReferred name method := by
    simp only [List.forall_mem_map, entry_passes, Option.mem_toList]
  rw [not_firstFails_iff]
  unfold checks
  rw [List.forall_mem_append, List.forall_mem_append, List.forall_mem_append, names, supertypes, entry]
  constructor
  · intro wellReferenced
    exact ⟨⟨⟨wellReferenced.distinct, wellReferenced.supertypes⟩,
      (statements wellReferenced.distinct).mpr wellReferenced.statements⟩, wellReferenced.entry⟩
  · rintro ⟨⟨⟨distinct, supertypes⟩, bodies⟩, entry⟩
    exact ⟨distinct, supertypes, (statements distinct).mp bodies, entry⟩

end Description

end CallFlow
