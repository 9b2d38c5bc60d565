import IdlSchema.Proofs.Constants.SingleNodes

/-!
# Literals are judged node by node

Once all constants are linked, to check a literal is to go through its nodes: what is found at each
of them is put together along the plan of the literal.
-/

namespace IdlSchema

namespace CheckState

variable {state : CheckState}

theorem Linked.exists_known (linked : state.Linked) (index : Nat) :
    ∃ value?, state.known index = .done value? := by
  by_cases inside : index < state.constants.length
  · obtain ⟨value?, same⟩ := linked _ (List.getElem_mem inside)
    exact ⟨value?, by rw [known, List.getD_eq_getElem?_getD, List.getElem?_eq_getElem inside, same,
      Option.getD_some]⟩
  · exact ⟨none, known_of_le (Nat.le_of_not_lt inside)⟩

theorem Linked.known_eq (linked : state.Linked) (index : Nat) :
    state.known index = .done (state.value? index) := by
  obtain ⟨value?, found⟩ := linked.exists_known index
  rw [value?_of_done found, found]

end CheckState

namespace ConstantScope

open TypeGraph

variable {scope : ConstantScope} {file : FileId} {expected actual : TypeId} {name : String}
  {state : CheckState}

/-! ## Types that literals lead to -/

namespace Unbroken

variable {b : TypeId} (unbroken : scope.Unbroken expected)

include unbroken

theorem of_leadsOn (leads : scope.LeadsOn expected b) : scope.Unbroken b :=
  fun other reaches => unbroken other (.head leads reaches)

theorem of_trueType (wellFormed : scope.graph.WellFormed)
    (behind : scope.graph.trueType expected = some actual) : scope.Unbroken actual := by
  intro other reaches
  refine unbroken other (Relation.ReflTransGen.trans ?_ reaches)
  exact Relation.ReflTransGen.mono (fun _ _ aliased => .inl (.inl aliased)) _ _
    (wellFormed.trueType_eq_some_iff.mp behind).1

theorem of_parameter (below : scope.graph.Parameter b expected) : scope.Unbroken b :=
  unbroken.of_leadsOn (.inl (.inr below))

theorem exists_checkedType? (wellFormed : scope.graph.WellFormed) :
    ∃ actual, scope.graph.trueType expected = some actual ∧
      scope.checkedType? expected = some actual := by
  obtain ⟨actual, behind⟩ := (unbroken expected .refl).2
  have valid := ((unbroken.of_trueType wellFormed behind) actual .refl).1
  exact ⟨actual, behind, checkedType?_eq_some_iff.mpr ⟨behind, valid⟩⟩

end Unbroken

/-! ## Single nodes -/

section

variable (behind : scope.graph.trueType expected = some actual)

include behind

theorem passes_of_fits {literal : Literal}
    (no_identifier : ∀ location name, literal ≠ .identifier location name)
    (fits : scope.Fits actual literal) :
    scope.Passes Text.Plain state file (.literal expected literal) where
  inoffensive kind offends := by
    cases offends with
    | unfit behind' _ unfit =>
        cases behind.symm.trans behind'
        exact unfit fits
    | noMember | unknown | mistyped => exact no_identifier _ _ rfl
  complete lacks := by
    cases lacks
    exact no_identifier _ _ rfl

theorem passes_of_isWord {legible : String → Prop} (word : scope.IsWord legible actual name)
    (location : Location) :
    scope.Passes legible state file (.literal expected (.identifier location name)) where
  inoffensive kind offends := by
    cases offends with
    | unfit _ no_identifier _ => exact no_identifier _ _ rfl
    | noMember behind' no_word _ _ | unknown behind' no_word _ _
    | mistyped behind' no_word _ _ _ _ =>
        cases behind.symm.trans behind'
        exact no_word word
  complete lacks := by
    cases lacks with
    | constant behind' no_word _ _ =>
        cases behind.symm.trans behind'
        exact no_word word

end

theorem passes_of_keyField? {struct : StructType Literal} {key : Literal} {field : Field Literal}
    (found : struct.keyField? key = some field) :
    scope.Passes Text.Plain state file (.key struct key) where
  inoffensive kind offends := by
    cases offends with
    | key absent => cases found.symm.trans absent
  complete lacks := nomatch lacks

/-! ## Plans and nodes -/

theorem Blames.append {legible : String → Prop} {nodes nodes' : List LiteralNode}
    {problems problems' : Diagnostics} (first : scope.Blames legible state file nodes problems)
    (second : scope.Blames legible state file nodes' problems') :
    scope.Blames legible state file (nodes ++ nodes') (problems ++ problems') := by
  induction first with
  | nil => exact second
  | passed inoffensive _ induction => exact .passed inoffensive induction
  | blamed offends _ induction => exact .blamed offends induction

/--
A plan sums up nodes: the problems are those of the nodes, and there is a value just if nothing is
wrong with any of them.
-/
structure SumsUp (scope : ConstantScope) (state : CheckState) (file : FileId) {α : Type}
    (plan : Plan α) (nodes : List LiteralNode) : Prop where
  blames : scope.Blames Text.Plain state file nodes
    (plan.problems fun use => scope.misuse use (state.value? use.index))
  valued : (plan.evaluate (scope.answer state.value?)).isSome ↔
    ∀ node ∈ nodes, scope.Passes Text.Plain state file node

namespace SumsUp

variable {α β γ : Type} {node : LiteralNode} {nodes nodes' : List LiteralNode}

theorem value (a : α) : scope.SumsUp state file (.value a) [] where
  blames := .nil
  valued := iff_of_true rfl (List.forall_mem_nil _)

theorem refuse {kind : DiagnosticKind} (offends : scope.Offends Text.Plain state file node kind)
    (text : String) :
    scope.SumsUp state file (.refuse (.detailed kind node.location text) : Plan α) [node] where
  blames := .blamed offends .nil
  valued := iff_of_false Bool.false_ne_true fun passes =>
    (passes node List.mem_cons_self).inoffensive kind offends

theorem cons {plan : Plan α} (passes : scope.Passes Text.Plain state file node)
    (rest : scope.SumsUp state file plan nodes) : scope.SumsUp state file plan (node :: nodes) where
  blames := .passed passes.inoffensive rest.blames
  valued := by rw [rest.valued, List.forall_mem_cons, and_iff_right passes]

theorem both {first : Plan β} {second : Plan γ} (combine : β → γ → α)
    (at_first : scope.SumsUp state file first nodes)
    (at_second : scope.SumsUp state file second nodes') :
    scope.SumsUp state file (.both combine first second) (nodes ++ nodes') where
  blames := at_first.blames.append at_second.blames
  valued := by
    rw [List.forall_mem_append, ← at_first.valued, ← at_second.valued, Plan.evaluate]
    cases first.evaluate (scope.answer state.value?) <;>
      cases second.evaluate (scope.answer state.value?) <;> simp

theorem map {plan : Plan β} (change : β → α) (inner : scope.SumsUp state file plan nodes) :
    scope.SumsUp state file (plan.map change) nodes := by
  have both := inner.both (fun b (_ : Unit) => change b) (.value ())
  rwa [List.append_nil] at both

end SumsUp

/-! ## Identifiers -/

/-- The use of a constant does not offend if the constant, where it has a value, has the type. -/
theorem inoffensive_of_names {legible : String → Prop} {index : Nat}
    (names : scope.Names file name index) {constant : Constant Literal}
    (found : scope.model.constants[index]? = some constant)
    (accepted : ∀ value, state.value? index = some value →
      scope.graph.sameType constant.type expected = true)
    (location : Location) (kind : DiagnosticKind) :
    ¬ scope.Offends legible state file (.literal expected (.identifier location name)) kind := by
  intro offends
  cases offends with
  | unfit _ no_identifier _ => exact no_identifier _ _ rfl
  | noMember _ _ invisible _ | unknown _ _ invisible _ => exact invisible index names
  | mistyped _ _ names' at_index valued differs =>
      obtain rfl := names.unique names'
      cases found.symm.trans at_index
      rw [accepted _ valued] at differs
      cases differs

section

variable (behind : scope.graph.trueType expected = some actual)
  (no_word : ¬ scope.IsWord Text.Plain actual name)

include behind no_word

theorem sumsUp_unknown (invisible : ∀ index, ¬ scope.Names file name index)
    (location : Location) :
    scope.SumsUp state file
      (.refuse (scope.unknownIdentifier expected actual location name) : Plan ConstantValue)
      [.literal expected (.identifier location name)] := by
  rw [unknownIdentifier]
  cases at_enum : scope.model.enum? actual with
  | some enum => exact .refuse (.noMember behind no_word invisible at_enum) _
  | none => exact .refuse (.unknown behind no_word invisible at_enum) _

/-- A use of a constant is judged by what has become of the constant. -/
theorem sumsUp_refer {index : Nat} (names : scope.Names file name index) (location : Location) :
    scope.SumsUp state file (.refer ⟨expected, location, name, index⟩)
      [.literal expected (.identifier location name)] := by
  obtain ⟨constant, found⟩ := names.exists_constant
  have inoffensive (accepted : ∀ value, state.value? index = some value →
      scope.graph.sameType constant.type expected = true) (kind : DiagnosticKind) :
      ¬ scope.Offends Text.Plain state file (.literal expected (.identifier location name)) kind :=
    inoffensive_of_names names found accepted location kind
  cases valued : state.value? index with
  | none =>
      have lacks : scope.Lacks Text.Plain state file
          (.literal expected (.identifier location name)) :=
        .constant behind no_word names valued
      refine ⟨?_, iff_of_false ?_ fun passes => (passes _ List.mem_cons_self).complete lacks⟩
      · rw [Plan.problems, valued, misuse_none]
        refine .passed (inoffensive fun value valued' => ?_) .nil
        cases valued.symm.trans valued'
      · rw [Plan.evaluate, answer, valued, accept_none]
        exact Bool.false_ne_true
  | some value =>
      cases same : scope.graph.sameType constant.type expected with
      | true =>
          have passes : scope.Passes Text.Plain state file
              (.literal expected (.identifier location name)) := by
            refine ⟨inoffensive fun _ _ => same, fun lacks => ?_⟩
            obtain ⟨_, _, names', absent⟩ := lacks
            obtain rfl := names.unique names'
            cases valued.symm.trans absent
          refine ⟨?_, iff_of_true ?_ (List.forall_mem_singleton.mpr passes)⟩
          · simp only [Plan.problems, misuse, valued, found, same, if_true]
            exact .passed passes.inoffensive .nil
          · simp [Plan.evaluate, answer, accept, valued, found, same]
      | false =>
          have offends : scope.Offends Text.Plain state file
              (.literal expected (.identifier location name)) .typeMismatch :=
            .mistyped behind no_word names found valued same
          refine ⟨?_, iff_of_false ?_ fun passes =>
            (passes _ List.mem_cons_self).inoffensive _ offends⟩
          · simp only [Plan.problems, misuse, valued, found, same]
            exact .blamed offends .nil
          · simp [Plan.evaluate, answer, accept, valued, found, same]

end

/-- An identifier is a word, the name of a constant, or neither. -/
theorem sumsUp_identifier (behind : scope.graph.trueType expected = some actual)
    (checked : scope.checkedType? expected = some actual) (location : Location) :
    scope.SumsUp state file (scope.plan file expected (.identifier location name))
      (scope.nodes expected (.identifier location name)) := by
  rw [plan.eq_def, nodes.eq_def, checked, behind]
  dsimp only
  cases word : scope.wordValue? actual name with
  | some value =>
      have is_word := isSome_wordValue?_iff.mp (Option.isSome_of_eq_some word)
      exact .cons (passes_of_isWord behind is_word location) (.value value)
  | none =>
      have no_word : ¬ scope.IsWord Text.Plain actual name := by
        rw [← isSome_wordValue?_iff, word]
        exact Bool.false_ne_true
      dsimp only
      cases visible : scope.lookup file name with
      | some index => exact sumsUp_refer behind no_word (lookup_eq_some_iff.mp visible) location
      | none =>
          refine sumsUp_unknown behind no_word (fun index names => ?_) location
          rw [lookup_eq_some_iff.mpr names] at visible
          cases visible

/-! ## Whole literals -/

theorem sumsUp_scalar (keeps : scope.KeepsKinds)
    (behind : scope.graph.trueType expected = some actual) {literal : Literal}
    (no_identifier : ∀ location name, literal ≠ .identifier location name)
    (no_list : ∀ location items, literal ≠ .list location items)
    (no_map : ∀ location entries, literal ≠ .map location entries) :
    scope.SumsUp state file (.ofExcept (scope.scalarAt expected actual literal))
      [.literal expected literal] := by
  have fits : scope.AnswersFit actual literal (scope.scalarAt expected actual literal) :=
    keeps.answersFit_scalarAt no_list no_map
  cases result : scope.scalarAt expected actual literal with
  | ok value =>
      rw [result] at fits
      exact .cons (passes_of_fits behind no_identifier fits) (.value value)
  | error problem =>
      rw [result] at fits
      obtain ⟨unfit, text, rfl⟩ := fits
      exact .refuse (.unfit behind no_identifier unfit) text

mutual

/-- The plan of a literal sums up its nodes. -/
theorem sumsUp_plan (keeps : scope.KeepsKinds) {expected : TypeId}
    (unbroken : scope.Unbroken expected) (literal : Literal) :
    scope.SumsUp state file (scope.plan file expected literal) (scope.nodes expected literal) := by
  obtain ⟨actual, behind, checked⟩ := unbroken.exists_checkedType? keeps.wellFormed
  have actual_unbroken := unbroken.of_trueType keeps.wellFormed behind
  cases literal with
  | integer | double | string =>
      rw [plan.eq_def, nodes.eq_def, checked, behind]
      exact sumsUp_scalar keeps behind nofun nofun nofun
  | identifier location name => exact sumsUp_identifier behind checked location
  | list location items =>
      rw [plan.eq_def, nodes.eq_def, checked, behind]
      dsimp only
      cases at_actual : scope.elementType? actual with
      | none =>
          have unfit : ¬ scope.Fits actual (.list location items) := by
            rw [fits_list_iff, at_actual]
            simp
          have offends : scope.Offends Text.Plain state file
              (.literal expected (.list location items)) .typeMismatch :=
            .unfit behind nofun unfit
          exact .refuse offends _
      | some element =>
          have fits : scope.Fits actual (.list location items) :=
            fits_list_iff.mpr ⟨element, at_actual⟩
          have element_unbroken := actual_unbroken.of_parameter (parameter_of_elementType? at_actual)
          exact .cons (passes_of_fits behind nofun fits)
            (.map _ (sumsUp_planItems keeps element_unbroken items))
  | map location entries =>
      rw [plan.eq_def, nodes.eq_def, checked, behind]
      dsimp only
      cases at_actual : scope.entryTypes? actual with
      | some types =>
          have fits : scope.Fits actual (.map location entries) :=
            keeps.fits_map_iff.mpr (.inl ⟨types, at_actual⟩)
          obtain ⟨key, value⟩ := parameter_of_entryTypes? at_actual
          exact .cons (passes_of_fits behind nofun fits)
            (.map _ (sumsUp_planEntries keeps (actual_unbroken.of_parameter key)
              (actual_unbroken.of_parameter value) entries))
      | none =>
          cases at_struct : scope.structAt? actual with
          | none =>
              have unfit : ¬ scope.Fits actual (.map location entries) := by
                rw [keeps.fits_map_iff, at_actual, at_struct]
                simp
              have offends : scope.Offends Text.Plain state file
                  (.literal expected (.map location entries)) .typeMismatch :=
                .unfit behind nofun unfit
              exact .refuse offends _
          | some struct =>
              have fits : scope.Fits actual (.map location entries) :=
                keeps.fits_map_iff.mpr (.inr ⟨struct, at_struct⟩)
              obtain ⟨listed, same⟩ := mem_of_structAt? at_struct
              have fields_unbroken : ∀ field ∈ struct.fields, scope.Unbroken field.type :=
                fun field member =>
                  actual_unbroken.of_leadsOn (.inr ⟨struct, listed, same, field, member, rfl⟩)
              exact .cons (passes_of_fits behind nofun fits)
                (.map _ (sumsUp_planFields keeps expected fields_unbroken entries))

theorem sumsUp_planItems (keeps : scope.KeepsKinds) {element : TypeId}
    (unbroken : scope.Unbroken element) (items : List Literal) :
    scope.SumsUp state file (scope.planItems file element items)
      (scope.itemNodes element items) := by
  cases items with
  | nil =>
      rw [planItems.eq_def, itemNodes.eq_def]
      exact .value []
  | cons item items =>
      rw [planItems.eq_def, itemNodes.eq_def]
      exact .both _ (sumsUp_plan keeps unbroken item) (sumsUp_planItems keeps unbroken items)

theorem sumsUp_planEntries (keeps : scope.KeepsKinds) {keyType valueType : TypeId}
    (keys : scope.Unbroken keyType) (values : scope.Unbroken valueType)
    (entries : List (Literal × Literal)) :
    scope.SumsUp state file (scope.planEntries file keyType valueType entries)
      (scope.entryNodes keyType valueType entries) := by
  match entries with
  | [] =>
      rw [planEntries.eq_def, entryNodes.eq_def]
      exact .value []
  | (key, value) :: entries =>
      rw [planEntries.eq_def, entryNodes.eq_def]
      exact .both _ (.both _ (sumsUp_plan keeps keys key) (sumsUp_plan keeps values value))
        (sumsUp_planEntries keeps keys values entries)

theorem sumsUp_planFields (keeps : scope.KeepsKinds) (expected : TypeId)
    {struct : StructType Literal} (unbroken : ∀ field ∈ struct.fields, scope.Unbroken field.type)
    (entries : List (Literal × Literal)) :
    scope.SumsUp state file (scope.planFields file expected struct entries)
      (scope.fieldNodes struct entries) := by
  match entries with
  | [] =>
      rw [planFields.eq_def, fieldNodes.eq_def]
      exact .value []
  | (key, value) :: entries =>
      rw [planFields.eq_def, fieldNodes.eq_def]
      refine .both _ ?_ (sumsUp_planFields keeps expected unbroken entries)
      cases at_key : scope.fieldAt expected struct key with
      | ok field =>
          have found := keyField?_of_fieldAt_ok at_key
          rw [found]
          obtain ⟨location, name, rfl, at_name⟩ := field?_of_fieldAt at_key
          have member := List.mem_of_find?_eq_some at_name
          exact .cons (passes_of_keyField? found)
            (.map _ (sumsUp_plan keeps (unbroken field member) value))
      | error problem =>
          obtain ⟨absent, text, rfl⟩ := keyField?_of_fieldAt_error at_key
          rw [absent]
          exact .refuse (.key absent) text

end

/-! ## Runs -/

/-- Where all constants are linked, a plan is carried out without changing what is known of them. -/
theorem run_of_linked {α : Type} (linked : state.Linked) (plan : Plan α) (fuel : Nat) :
    plan.run scope (scope.valueOf fuel) state =
      (plan.evaluate (scope.answer state.value?),
        state.reportAll (plan.problems fun use => scope.misuse use (state.value? use.index))) := by
  induction plan generalizing state with
  | value a => exact Prod.ext rfl state.reportAll_nil.symm
  | silent => exact Prod.ext rfl state.reportAll_nil.symm
  | refuse problem => rfl
  | refer use =>
      have known := linked.known_eq use.index
      rw [run_refer_of_ne (by simp [known]), valueOf_of_done known]
      rfl
  | both combine first second induction induction' =>
      have linked' (problems : Diagnostics) : (state.reportAll problems).Linked := linked
      rw [run_both, induction linked, induction' (linked' _)]
      simp only [CheckState.value?_reportAll]
      simp only [Plan.evaluate, Plan.problems, CheckState.reportAll, List.append_assoc]

/-- Once all constants are linked, a literal is judged node by node. -/
theorem judges_check (keeps : scope.KeepsKinds) (linked : state.Linked)
    (unbroken : scope.Unbroken expected) (file : FileId) (literal : Literal) :
    scope.Judges Text.Plain file expected literal state
      (scope.check (scope.valueOf scope.fuel) file expected literal state) := by
  have sums : scope.SumsUp state file (scope.plan file expected literal)
    (scope.nodes expected literal) := sumsUp_plan keeps unbroken literal
  rw [check_eq_run, run_of_linked linked]
  exact ⟨rfl, ⟨_, rfl, sums.blames⟩, sums.valued⟩

/-- Checking a model leaves all constants linked. -/
theorem linked_checkModel (scope : ConstantScope) :
    (scope.checkModel scope.initialState).2.Linked := by
  intro constant member
  obtain ⟨index, inside, rfl⟩ := List.getElem_of_mem member
  have sound := (yields_checkModel (sound_initialState scope)).progresses.sound
  obtain ⟨value?, found⟩ := done_checkModel (sound_initialState scope) (sound.length ▸ inside)
  refine ⟨value?, ?_⟩
  rwa [CheckState.known, List.getD_eq_getElem?_getD, List.getElem?_eq_getElem inside,
    Option.getD_some] at found

/-- Some types are unbroken if they are whole and lead to each other only. -/
theorem unbroken_of_closed (types : List TypeId)
    (whole : ∀ a ∈ types, a ≠ .invalid ∧ (scope.graph.trueType a).isSome)
    (targets : ∀ a ∈ types, ((scope.graph.user? a).bind (·.target?)).toList ⊆ types)
    (parameters : ∀ a ∈ types, ((scope.graph.shape? a).map (·.parameters)).getD [] ⊆ types)
    (fields : ∀ struct ∈ scope.model.structs, struct.id ∈ types →
      struct.fields.map (·.type) ⊆ types)
    {a : TypeId} (member : a ∈ types) : scope.Unbroken a := by
  intro other reaches
  have inside : other ∈ types := by
    induction reaches with
    | refl => exact member
    | tail _ leads inside =>
        rcases leads with (⟨user, found, _, target⟩ | ⟨shape, found, below⟩) |
          ⟨struct, listed, rfl, field, given, rfl⟩
        · exact targets _ inside (by simp [found, target])
        · exact parameters _ inside (by simpa [found] using below)
        · exact fields struct listed inside (List.mem_map.mpr ⟨field, given, rfl⟩)
  obtain ⟨valid, behind⟩ := whole other inside
  exact ⟨valid, Option.isSome_iff_exists.mp behind⟩

end ConstantScope

namespace FileTable

variable (files : FileTable) (order : List FileId) (warnDeprecated : Bool)

theorem keepsKinds_constantScope :
    (files.constantScope order warnDeprecated).KeepsKinds where
  wellFormed := wellFormed_literals files order warnDeprecated
  enumKind _ := kind?_of_mem_enums files order warnDeprecated
  structKind _ := kind?_of_mem_structs files order warnDeprecated

/--
Once all constants are linked, a literal in a file is judged node by node at any type that leads to
no broken one.  A name is taken apart at every point, so a member or an enum with a point in its
name is not spelled by it.
-/
theorem judgesNodes {state : CheckState} (linked : state.Linked) {expected : TypeId}
    (unbroken : (files.constantScope order warnDeprecated).Unbroken expected) (file : FileId)
    (literal : Literal) :
    (files.constantScope order warnDeprecated).Judges Text.Plain file expected literal state
      ((files.constantScope order warnDeprecated).check
        ((files.constantScope order warnDeprecated).valueOf
          (files.constantScope order warnDeprecated).fuel) file expected literal state) :=
  ConstantScope.judges_check (keepsKinds_constantScope files order warnDeprecated) linked unbroken
    file literal

/-- A file with a struct that has a list of colours and a number, and a constant. -/
def paintedItems : FileTable :=
  let location := .start "a.thrift"
  let named (name : String) : TypeReference := .named location name .empty
  { files := [{
      path := "a.thrift"
      includes := []
      tree := { FileTree.empty "a.thrift" with
        constants := [⟨.plain "ONE" location, named "i8", .integer location 1⟩]
        enums := [⟨.plain "Color" location, [⟨.plain "RED" location, some 3⟩]⟩]
        structs := [⟨.plain "Item" location, .struct, [
          ⟨.plain "colors" location, 1, .default, .list location (named "Color") .empty, none⟩,
          ⟨.plain "count" location, 2, .default, named "i8", none⟩]⟩] } }] }

/-- An item with colours that are good and bad, and with a field that there is not. -/
def spoiledItem : Literal :=
  let location := .start "b.thrift"
  .map location [
    (.string location "colors", .list location [.identifier location "Color.RED",
      .integer location 3, .integer location 4, .identifier location "BLUE"]),
    (.string location "count", .identifier location "ONE"),
    (.string location "weight", .integer location 9)]

theorem judgesNodes_spoiledItem :
    (paintedItems.checked [⟨0⟩] true).2.Linked ∧
      (paintedItems.constantScope [⟨0⟩] true).Unbroken ⟨12⟩ ∧
      (paintedItems.constantScope [⟨0⟩] true).Judges Text.Plain ⟨0⟩ ⟨12⟩ spoiledItem
        (paintedItems.checked [⟨0⟩] true).2
        ((paintedItems.constantScope [⟨0⟩] true).check
          ((paintedItems.constantScope [⟨0⟩] true).valueOf
            (paintedItems.constantScope [⟨0⟩] true).fuel) ⟨0⟩ ⟨12⟩ spoiledItem
          (paintedItems.checked [⟨0⟩] true).2) := by
  have linked : (paintedItems.checked [⟨0⟩] true).2.Linked := ConstantScope.linked_checkModel _
  have unbroken : (paintedItems.constantScope [⟨0⟩] true).Unbroken ⟨12⟩ := by
    refine ConstantScope.unbroken_of_closed [⟨12⟩, ⟨13⟩, ⟨11⟩, .ofBuiltin .i8] ?_ ?_ ?_ ?_
      List.mem_cons_self
    · decide +kernel
    · decide +kernel
    · decide +kernel
    · decide +kernel
  exact ⟨linked, unbroken, judgesNodes paintedItems [⟨0⟩] true linked unbroken ⟨0⟩ spoiledItem⟩

/-- A file with an enum whose only member has a point in its name. -/
def dottedMember : FileTable :=
  let location := .start "a.thrift"
  { files := [{
      path := "a.thrift"
      includes := []
      tree := { FileTree.empty "a.thrift" with
        constants := [⟨.plain "C" location, .named location "E" .empty,
          .identifier location "X.Y"⟩]
        enums := [⟨.plain "E" location, [⟨.plain "X.Y" location, some 7⟩]⟩] } }] }

/-- A member whose name has a point is not found under its name, although no node offends then. -/
theorem not_judgesNodes_dottedMember :
    (dottedMember.checked [⟨0⟩] true).2.Linked ∧
      (dottedMember.constantScope [⟨0⟩] true).Unbroken ⟨11⟩ ∧
      ¬ (dottedMember.constantScope [⟨0⟩] true).Judges (fun _ => True) ⟨0⟩ ⟨11⟩
        (.identifier (.start "a.thrift") "X.Y") (dottedMember.checked [⟨0⟩] true).2
        ((dottedMember.constantScope [⟨0⟩] true).check
          ((dottedMember.constantScope [⟨0⟩] true).valueOf
            (dottedMember.constantScope [⟨0⟩] true).fuel) ⟨0⟩ ⟨11⟩
          (.identifier (.start "a.thrift") "X.Y") (dottedMember.checked [⟨0⟩] true).2) := by
  refine ⟨ConstantScope.linked_checkModel _, ?_, fun judges => ?_⟩
  · refine ConstantScope.unbroken_of_closed [⟨11⟩] ?_ ?_ ?_ ?_ List.mem_cons_self
    · decide +kernel
    · decide +kernel
    · decide +kernel
    · decide +kernel
  · have behind : (dottedMember.constantScope [⟨0⟩] true).graph.trueType ⟨11⟩ = some ⟨11⟩ := by
      decide +kernel
    have declared : ((dottedMember.constantScope [⟨0⟩] true).model.enum? ⟨11⟩).any
        (fun enum => enum.members.any (·.name == "X.Y")) = true := by
      decide +kernel
    have word : (dottedMember.constantScope [⟨0⟩] true).IsWord (fun _ => True) ⟨11⟩ "X.Y" := by
      obtain ⟨enum, at_enum, has_member⟩ := (Option.any_eq_true _ _).mp declared
      obtain ⟨member, listed, named⟩ := List.any_eq_true.mp has_member
      refine .inr ⟨enum, at_enum, member, listed, ?_⟩
      rw [eq_of_beq named]
      exact .alone trivial
    have unvalued : ((dottedMember.constantScope [⟨0⟩] true).check
          ((dottedMember.constantScope [⟨0⟩] true).valueOf
            (dottedMember.constantScope [⟨0⟩] true).fuel) ⟨0⟩ ⟨11⟩
          (.identifier (.start "a.thrift") "X.Y") (dottedMember.checked [⟨0⟩] true).2).1.isSome =
        false := by
      decide +kernel
    rw [judges.valued.mpr] at unvalued
    · cases unvalued
    · rw [ConstantScope.nodes.eq_def, behind]
      exact List.forall_mem_singleton.mpr (ConstantScope.passes_of_isWord behind word _)

end FileTable
end IdlSchema
