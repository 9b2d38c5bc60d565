import Mathlib.Data.List.Basic
import Mathlib.Logic.Relation
import IdlSchema.Disk.Disk
import IdlSchema.Disk.Origins
import IdlSchema.Proofs.TextParts

/-!
# Components of paths and normal paths

What stands between the slashes of a path is a point, two points, or a name.  Between two paths with a
slash in the middle nothing is lost, so the components of a path as seen from a directory are those
of the directory and then its own.  Components can be written as a path and read again.

Normalizing keeps a stack of components, from which a step up takes the last name.  Taking a name off
again undoes putting it there, whatever lies below, so it does not matter whether a part of a path
is normalized beforehand.  A path in normal form is the root or not, so many steps up, and names; all
ways to write a path that differ in points, slashes and directories left again have one normal form.
-/

namespace IdlSchema
namespace Path

/-- A text is a name: it is not empty, has no slash, and is not one of the points. -/
structure IsName (text : String) : Prop where
  nonempty : text ≠ ""
  plain : '/' ∉ text.toList
  ne_point : text ≠ "."
  ne_points : text ≠ ".."

/-- A component can stand between two slashes. -/
inductive Component.IsStep : Component → Prop
  | current : IsStep .current
  | parent : IsStep .parent
  | name {text : String} : IsName text → IsStep (.name text)

/-- The components between the slashes of a path, without the root. -/
def steps (path : String) : List Component :=
  componentsOfParts ((Text.partsBetween (· == '/') path.toList).map String.ofList)

/-- The root, if a path starts there. -/
def base (path : String) : List Component :=
  if isAbsolute path then [.root] else []

theorem componentsOf_eq (path : String) : Disk.componentsOf path = base path ++ steps path := by
  rw [Disk.componentsOf, base, steps]
  split <;> rfl

/-! ## Slashes in the middle -/

theorem isAbsolute_append {front : String} (nonempty : front ≠ "") (back : String) :
    isAbsolute (front ++ back) = isAbsolute front := by
  have chars : front.toList ≠ [] := fun empty => nonempty (String.toList_eq_nil_iff.mp empty)
  rw [isAbsolute, isAbsolute, String.toList_append, List.head?_append_of_ne_nil _ chars]

theorem isAbsolute_slash (path : String) : isAbsolute ("/" ++ path) = true := by
  simp [isAbsolute]

theorem steps_append (front back : String) :
    steps (front ++ "/" ++ back) = steps front ++ steps back := by
  have chars : (front ++ "/" ++ back).toList = front.toList ++ '/' :: back.toList := by simp
  rw [steps, chars, Text.partsBetween_append_separator (· == '/') (beq_self_eq_true '/')]
  simp [steps, componentsOfParts]

@[simp]
theorem steps_empty : steps "" = [] := by
  simp [steps, componentsOfParts, Text.partsBetween]

theorem steps_slash (path : String) : steps ("/" ++ path) = steps path := by
  have split := steps_append "" path
  rwa [steps_empty, List.nil_append, String.empty_append] at split

theorem steps_append_slash (path : String) : steps (path ++ "/") = steps path := by
  have split := steps_append path ""
  rwa [steps_empty, List.append_nil, String.append_empty] at split

theorem steps_of_plain {text : String} (plain : '/' ∉ text.toList) (nonempty : text ≠ "") :
    steps text = [.ofPart text] := by
  have whole : ∀ c ∈ text.toList, (c == '/') = false :=
    fun _ member => beq_false_of_ne fun same => plain (same ▸ member)
  rw [steps, Text.partsBetween_of_plain whole]
  simp [componentsOfParts, nonempty]

@[simp]
theorem steps_point : steps "." = [.current] := by
  decide +kernel

@[simp]
theorem steps_points : steps ".." = [.parent] := by
  decide +kernel

theorem IsName.steps {text : String} (named : IsName text) : steps text = [.name text] := by
  rw [steps_of_plain named.plain named.nonempty, Component.ofPart, if_neg named.ne_point,
    if_neg named.ne_points]

theorem isStep_of_mem_steps {path : String} {component : Component}
    (member : component ∈ steps path) : component.IsStep := by
  obtain ⟨part, part_mem, rfl⟩ := List.mem_map.mp member
  obtain ⟨chars_mem, nonempty⟩ := List.mem_filter.mp part_mem
  obtain ⟨chars, listed, rfl⟩ := List.mem_map.mp chars_mem
  have plain := Text.not_mem_of_mem_partsBetween (· == '/') (beq_self_eq_true '/') listed
  rw [Component.ofPart]
  split
  · exact .current
  · split
    · exact .parent
    · refine .name ⟨fun empty => ?_, ?_, by assumption, by assumption⟩
      · simp [empty] at nonempty
      · rwa [String.toList_ofList]

/-- The components of a path as seen from a directory. -/
theorem componentsOf_join (directory path : String) : Disk.componentsOf (join directory path) =
    if isAbsolute path then Disk.componentsOf path
    else Disk.componentsOf directory ++ Disk.componentsOf path := by
  rw [join]
  cases absolute : isAbsolute path with
  | true => simp
  | false =>
      have own : Disk.componentsOf path = steps path := by
        rw [componentsOf_eq, base, absolute]
        rfl
      by_cases empty : directory = ""
      · have none : Disk.componentsOf "" = [] := by decide +kernel
        simp [empty, none]
      · have base_eq (back : String) : base (directory ++ back) = base directory := by
          rw [base, base, isAbsolute_append empty]
        by_cases closed : directory.toList.getLast? = some '/'
        · -- A slash at the end of the directory is the one in the middle.
          obtain ⟨front, same⟩ := List.getLast?_eq_some_iff.mp closed
          obtain rfl : directory = String.ofList front ++ "/" :=
            String.toList_injective (by simp [same])
          have split : steps (String.ofList front ++ "/" ++ path) =
              steps (String.ofList front ++ "/") ++ steps path := by
            rw [steps_append, steps_append_slash]
          simp [own, componentsOf_eq, base_eq, split]
        · have split : steps (directory ++ "/" ++ path) = steps directory ++ steps path :=
            steps_append directory path
          rw [String.append_assoc] at split
          simp [own, componentsOf_eq, closed, empty, String.append_assoc, base_eq, split]

/-! ## Components as paths -/

namespace Component

theorem IsStep.steps_text {component : Component} (step : component.IsStep) :
    steps component.text = [component] := by
  cases step with
  | current => exact steps_point
  | parent => exact steps_points
  | name named => exact named.steps

theorem IsStep.isAbsolute_text_append {component : Component} (step : component.IsStep)
    (back : String) : isAbsolute (component.text ++ back) = false := by
  cases step with
  | current => rw [isAbsolute_append (by decide)]; decide +kernel
  | parent => rw [isAbsolute_append (by decide)]; decide +kernel
  | @name text named =>
      refine (isAbsolute_append named.nonempty back).trans (beq_false_of_ne fun same => ?_)
      exact named.plain (List.mem_of_mem_head? same)

end Component

theorem intercalate_concat_append (list : List String) (last back : String) :
    "/".intercalate (list ++ [last]) ++ back = "/".intercalate (list ++ [last ++ back]) := by
  induction list with
  | nil => simp
  | cons first rest induction =>
      cases rest with
      | nil => simp [String.append_assoc]
      | cons next rest =>
          simp only [List.cons_append, String.intercalate_cons_cons] at induction ⊢
          rw [String.append_assoc, induction]

/-- Steps are read from the text between whose slashes they stand. -/
theorem steps_intercalate {list : List Component} (all : ∀ component ∈ list, component.IsStep) :
    isAbsolute ("/".intercalate (list.map Component.text)) = false ∧
      steps ("/".intercalate (list.map Component.text)) = list := by
  induction list with
  | nil => exact ⟨by decide +kernel, steps_empty⟩
  | cons first rest induction =>
      obtain ⟨step, others⟩ := List.forall_mem_cons.mp all
      cases rest with
      | nil =>
          have absolute := step.isAbsolute_text_append ""
          rw [String.append_empty] at absolute
          rw [List.map_cons, List.map_nil, String.intercalate_singleton]
          exact ⟨absolute, step.steps_text⟩
      | cons next rest =>
          rw [List.map_cons, List.map_cons, String.intercalate_cons_cons, ← List.map_cons,
            String.append_assoc]
          refine ⟨step.isAbsolute_text_append _, ?_⟩
          rw [← String.append_assoc, steps_append, step.steps_text, (induction others).2]
          rfl

/-- Steps are written between slashes, those from the root behind one more. -/
theorem ofComponents_eq (absolute : Bool) {list : List Component}
    (all : ∀ component ∈ list, component.IsStep) :
    ofComponents ((if absolute then [.root] else []) ++ list) =
      (if absolute then "/" else "") ++ "/".intercalate (list.map Component.text) := by
  cases absolute with
  | true => rfl
  | false =>
      rw [if_neg Bool.false_ne_true, if_neg Bool.false_ne_true, String.empty_append, List.nil_append]
      cases list with
      | nil => rfl
      | cons first rest =>
          cases first with
          | root => cases all .root List.mem_cons_self
          | _ => rfl

/-- Components are read from the path that is written with them. -/
theorem componentsOf_ofComponents (absolute : Bool) {list : List Component}
    (all : ∀ component ∈ list, component.IsStep) :
    Disk.componentsOf (ofComponents ((if absolute then [.root] else []) ++ list)) =
      (if absolute then [.root] else []) ++ list := by
  obtain ⟨relative, same⟩ := steps_intercalate all
  rw [ofComponents_eq absolute all, componentsOf_eq, base]
  cases absolute with
  | true => rw [if_pos rfl, isAbsolute_slash, steps_slash, same]
  | false => rw [if_neg Bool.false_ne_true, String.empty_append, relative, same]

end Path
end IdlSchema

/-! # Normal paths -/

namespace IdlSchema
namespace Path

/-! ## What it means to be normal -/

/-- The root or not, so many steps up, and names. -/
def normalForm (absolute : Bool) (up : Nat) (names : List String) : List Component :=
  (if absolute then [.root] else []) ++ (List.replicate up .parent ++ names.map .name)

/-- A path is written with the components of a normal form and nothing else. -/
def IsNormal (path : String) : Prop :=
  ∃ up names, (∀ name ∈ names, IsName name) ∧
    path = ofComponents (normalForm (isAbsolute path) up names)

/-- What can stand in a path, ahead of more of it, without leading elsewhere. -/
inductive Detour : String → Prop
  | slash : Detour "/"
  | point : Detour "./"
  | directory {name : String} : IsName name → Detour (name ++ "/../")

/-- The second path is the first one with something in it that does not lead elsewhere. -/
inductive Respells : String → String → Prop
  | inside (front back : String) {detour : String} : Detour detour →
      Respells (front ++ "/" ++ back) (front ++ "/" ++ detour ++ back)
  | ahead {path detour : String} : Detour detour → detour ≠ "/" → isAbsolute path = false →
      Respells path (detour ++ path)
  | behind {path : String} : path ≠ "" → Respells path (path ++ "/")

/-- Two paths are ways to write the same path. -/
def Spells (path path' : String) : Prop :=
  Relation.EqvGen Respells path path'

/-- Normal forms of a directory and a path, and of the path as seen from the directory. -/
structure NormalizesAlong (directory path : String) : Prop where
  normal : IsNormal (normalize path)
  components : ∃ up names, (∀ name ∈ names, IsName name) ∧
    components (normalize path) = normalForm (isAbsolute path) up names
  no_point : .current ∉ Disk.componentsOf (normalize path)
  fixed : IsNormal path → normalize path = path
  idempotent : normalize (normalize path) = normalize path
  joined : normalize (join (normalize directory) (normalize path)) =
    normalize (join directory path)
  spelled : ∀ directory' path', Spells directory directory' → Spells path path' →
    normalize (join directory' path') = normalize (join directory path) ∧
      Origins.candidatesIn path' directory' = Origins.candidatesIn path directory

/-! ## The stack -/

@[simp]
theorem push_current (reversed : List Component) : push reversed .current = reversed := by
  cases reversed with
  | nil => rfl
  | cons last rest => cases last <;> rfl

@[simp]
theorem push_name (reversed : List Component) (text : String) :
    push reversed (.name text) = .name text :: reversed := by
  cases reversed with
  | nil => rfl
  | cons last rest => cases last <;> rfl

@[simp]
theorem push_root (reversed : List Component) : push reversed .root = .root :: reversed := by
  cases reversed with
  | nil => rfl
  | cons last rest => cases last <;> rfl

@[simp]
theorem push_parent_name (reversed : List Component) (text : String) :
    push (.name text :: reversed) .parent = reversed :=
  rfl

theorem push_parent_of_head {reversed : List Component}
    (no_name : ∀ text rest, reversed ≠ .name text :: rest) :
    push reversed .parent = .parent :: reversed := by
  cases reversed with
  | nil => rfl
  | cons last rest =>
      cases last with
      | name text => exact absurd rfl (no_name text rest)
      | _ => rfl

/-- Normal forms of components do on any stack what the components do. -/
theorem foldl_push_normalize (start list : List Component) :
    (normalizeComponents list).foldl push start = list.foldl push start := by
  induction list using List.reverseRecOn with
  | nil => rfl
  | append_singleton list component induction =>
      rw [normalizeComponents] at induction ⊢
      rw [List.foldl_concat, List.foldl_concat, ← induction]
      cases component with
      | root => rw [push_root, List.reverse_cons, List.foldl_concat]
      | current => rw [push_current, push_current]
      | name text => rw [push_name, List.reverse_cons, List.foldl_concat]
      | parent =>
          by_cases left : ∃ text rest, list.foldl push [] = .name text :: rest
          · -- The name that is taken off was put on the stack last.
            obtain ⟨text, rest, same⟩ := left
            rw [same, push_parent_name, List.reverse_cons, List.foldl_concat, push_name,
              push_parent_name]
          · have no_name : ∀ text rest, list.foldl push [] ≠ .name text :: rest :=
              fun text rest same => left ⟨text, rest, same⟩
            rw [push_parent_of_head no_name, List.reverse_cons, List.foldl_concat]

theorem normalizeComponents_append (front back : List Component) :
    normalizeComponents (normalizeComponents front ++ normalizeComponents back) =
      normalizeComponents (front ++ back) := by
  rw [normalizeComponents, List.foldl_append, foldl_push_normalize, foldl_push_normalize,
    ← List.foldl_append, ← normalizeComponents]

theorem normalizeComponents_idempotent (list : List Component) :
    normalizeComponents (normalizeComponents list) = normalizeComponents list := by
  rw [normalizeComponents, foldl_push_normalize, normalizeComponents]

/-- Points count for nothing, wherever they stand. -/
theorem foldl_push_filter (start list : List Component) :
    (list.filter (· != .current)).foldl push start = list.foldl push start := by
  induction list generalizing start with
  | nil => rfl
  | cons component list induction =>
      rw [List.filter_cons]
      split
      · exact induction _
      · rename_i point
        obtain rfl : component = .current := by simpa using point
        rw [List.foldl_cons, push_current]
        exact induction start

/-! ## Normal forms -/

/-- Steps from the root, or from nowhere, come to a normal form. -/
theorem exists_normalForm (absolute : Bool) {list : List Component}
    (all : ∀ component ∈ list, component.IsStep) :
    ∃ up names, (∀ name ∈ names, IsName name) ∧
      normalizeComponents ((if absolute then [.root] else []) ++ list) =
        normalForm absolute up names := by
  induction list using List.reverseRecOn with
  | nil =>
      refine ⟨0, [], by simp, ?_⟩
      cases absolute <;> rfl
  | append_singleton list component induction =>
      obtain ⟨earlier, last⟩ := List.forall_mem_append.mp all
      obtain ⟨up, names, named, same⟩ := induction earlier
      have stack : ((if absolute then [Component.root] else []) ++ list).foldl push [] =
          (normalForm absolute up names).reverse :=
        List.reverse_eq_iff.mp same
      rw [← List.append_assoc, normalizeComponents, List.foldl_concat, stack]
      cases last component (List.mem_singleton_self _) with
      | current => exact ⟨up, names, named, by rw [push_current, List.reverse_reverse]⟩
      | @name text new =>
          refine ⟨up, names ++ [text], ?_, ?_⟩
          · exact List.forall_mem_append.mpr ⟨named, List.forall_mem_singleton.mpr new⟩
          · simp [normalForm]
      | parent =>
          cases names using List.reverseRecOn with
          | nil =>
              refine ⟨up + 1, [], named, ?_⟩
              rw [push_parent_of_head]
              · simp [normalForm, List.replicate_succ']
              · intro text rest same
                have member : .name text ∈ (normalForm absolute up []).reverse :=
                  same ▸ List.mem_cons_self
                cases absolute <;> simp [normalForm, List.mem_replicate] at member
          | append_singleton names text =>
              refine ⟨up, names, (List.forall_mem_append.mp named).1, ?_⟩
              simp [normalForm]

theorem isStep_of_mem_normalForm {up : Nat} {names : List String}
    (named : ∀ name ∈ names, IsName name) :
    ∀ component ∈ List.replicate up Component.parent ++ names.map .name, component.IsStep := by
  refine List.forall_mem_append.mpr ⟨fun component member => ?_, List.forall_mem_map.mpr ?_⟩
  · rw [List.eq_of_mem_replicate member]
    exact .parent
  · exact fun name member => .name (named name member)

/-- A normal form stays as it is. -/
theorem normalizeComponents_normalForm (absolute : Bool) (up : Nat) (names : List String) :
    normalizeComponents (normalForm absolute up names) = normalForm absolute up names := by
  have steps_up (start : List Component) (no_name : ∀ text rest, start ≠ .name text :: rest) :
      (List.replicate up Component.parent).foldl push start =
        List.replicate up .parent ++ start := by
    induction up generalizing start with
    | zero => rfl
    | succ up induction =>
        rw [List.replicate_succ, List.foldl_cons, push_parent_of_head no_name, induction _ (by simp),
          List.append_cons, ← List.replicate_succ', List.replicate_succ]
  have names_on (start : List Component) :
      (names.map Component.name).foldl push start = (names.map .name).reverse ++ start := by
    induction names generalizing start with
    | nil => rfl
    | cons name names induction =>
        rw [List.map_cons, List.foldl_cons, push_name, induction, List.reverse_cons]
        simp
  rw [normalizeComponents, normalForm, List.foldl_append, List.foldl_append, names_on, steps_up]
  · cases absolute <;> simp [push]
  · cases absolute <;> simp [push]

/-- The normal form of a path is that of its components, points and all. -/
theorem normalize_eq (path : String) :
    normalize path = ofComponents (normalizeComponents (Disk.componentsOf path)) := by
  have same : normalizeComponents (components path) =
      normalizeComponents (Disk.componentsOf path) := by
    rw [componentsOf_eq, base, normalizeComponents, normalizeComponents, components, ← steps]
    split
    · rw [List.foldl_cons, List.singleton_append, List.foldl_cons, foldl_push_filter]
    · rw [List.nil_append]
      split
      · rw [List.foldl_cons, push_current, foldl_push_filter]
      · rw [foldl_push_filter]
  rw [normalize, same]

theorem exists_normalForm_of_path (path : String) : ∃ up names,
    (∀ name ∈ names, IsName name) ∧ normalizeComponents (Disk.componentsOf path) =
      normalForm (isAbsolute path) up names := by
  rw [componentsOf_eq]
  exact exists_normalForm (isAbsolute path) fun _ => isStep_of_mem_steps

theorem componentsOf_ofComponents_normalForm (absolute : Bool) (up : Nat) {names : List String}
    (named : ∀ name ∈ names, IsName name) :
    Disk.componentsOf (ofComponents (normalForm absolute up names)) =
      normalForm absolute up names :=
  componentsOf_ofComponents absolute (isStep_of_mem_normalForm named)

/-- The components of a normal path are the normal form of the components. -/
theorem componentsOf_normalize (path : String) : Disk.componentsOf (normalize path) =
    normalizeComponents (Disk.componentsOf path) := by
  obtain ⟨up, names, named, same⟩ := exists_normalForm_of_path path
  rw [normalize_eq, same, componentsOf_ofComponents_normalForm _ _ named]

theorem isAbsolute_iff_head? (path : String) :
    isAbsolute path = true ↔ (Disk.componentsOf path).head? = some .root := by
  rw [componentsOf_eq, base]
  cases isAbsolute path with
  | true => simp
  | false =>
      simp only [Bool.false_eq_true, if_false, List.nil_append, false_iff]
      intro first
      cases isStep_of_mem_steps (List.mem_of_mem_head? first)

theorem head?_normalForm (absolute : Bool) (up : Nat) (names : List String) :
    (normalForm absolute up names).head? = some .root ↔ absolute = true := by
  cases absolute <;> cases up <;> cases names <;> simp [normalForm, List.replicate_succ]

theorem isAbsolute_normalize (path : String) : isAbsolute (normalize path) = isAbsolute path := by
  obtain ⟨up, names, _, same⟩ := exists_normalForm_of_path path
  rw [Bool.eq_iff_iff, isAbsolute_iff_head?, componentsOf_normalize, same, head?_normalForm]

theorem isNormal_normalize (path : String) : IsNormal (normalize path) := by
  obtain ⟨up, names, named, same⟩ := exists_normalForm_of_path path
  refine ⟨up, names, named, ?_⟩
  rw [isAbsolute_normalize, ← same, normalize_eq]

/-- A normal path stays as it is. -/
theorem IsNormal.normalize_eq {path : String} (normal : IsNormal path) : normalize path = path := by
  obtain ⟨up, names, named, same⟩ := normal
  have written := componentsOf_ofComponents_normalForm (isAbsolute path) up named
  rw [← same] at written
  rw [Path.normalize_eq, written, normalizeComponents_normalForm, ← same]

theorem normalize_join (directory path : String) :
    normalize (join (normalize directory) (normalize path)) = normalize (join directory path) := by
  simp only [normalize_eq (join _ _), componentsOf_join, isAbsolute_normalize,
    componentsOf_normalize]
  split
  · rw [normalizeComponents_idempotent]
  · rw [normalizeComponents_append]

/-- A path without points has no other components than those between its slashes. -/
theorem components_of_no_point {path : String} (no_point : .current ∉ Disk.componentsOf path) :
    components path = Disk.componentsOf path := by
  rw [componentsOf_eq, List.mem_append, not_or] at no_point
  have kept : (steps path).filter (· != .current) = steps path :=
    List.filter_eq_self.mpr fun component member =>
      bne_iff_ne.mpr fun same => no_point.2 (same ▸ member)
  have first : (steps path).head? ≠ some .current :=
    fun first => no_point.2 (List.mem_of_mem_head? first)
  rw [components, ← steps, kept, if_neg first, componentsOf_eq, base]
  split <;> rfl

theorem not_mem_normalForm (absolute : Bool) (up : Nat) (names : List String) :
    .current ∉ normalForm absolute up names := by
  cases absolute <;> simp [normalForm, List.mem_replicate]

/-! ## Ways to write a path -/

/-- What a detour adds to the components does nothing to a stack. -/
theorem Detour.exists_steps {detour : String} (leads : Detour detour) (back : String) :
    ∃ more, steps (detour ++ back) = more ++ steps back ∧
      ∀ start : List Component, more.foldl push start = start := by
  cases leads with
  | slash => exact ⟨[], steps_slash back, fun _ => rfl⟩
  | point =>
      refine ⟨[.current], ?_, push_current⟩
      have split := steps_append "." back
      rwa [steps_point] at split
  | @directory name named =>
      refine ⟨[.name name, .parent], ?_, fun start => ?_⟩
      · have text : name ++ "/../" ++ back = name ++ "/" ++ ".." ++ "/" ++ back := by
          simp only [String.append_assoc]
          rfl
        rw [text, steps_append, steps_append, named.steps, steps_points]
        rfl
      · rw [List.foldl_cons, List.foldl_cons, List.foldl_nil, push_name, push_parent_name]

theorem Detour.isAbsolute_append {detour : String} (leads : Detour detour) (proper : detour ≠ "/")
    (back : String) : isAbsolute (detour ++ back) = false := by
  cases leads with
  | slash => exact absurd rfl proper
  | point => exact Component.IsStep.current.isAbsolute_text_append ("/" ++ back)
  | @directory name named =>
      rw [String.append_assoc]
      exact (Component.IsStep.name named).isAbsolute_text_append ("/../" ++ back)

theorem base_append_slash (front back : String) :
    base (front ++ "/" ++ back) = base (front ++ "/") := by
  have nonempty : front ++ "/" ≠ "" := fun empty => by
    simpa using congrArg String.toList empty
  rw [base, base, isAbsolute_append nonempty]

/-- Ways to write a path have one normal form. -/
theorem normalizeComponents_of_respells {path path' : String} (respells : Respells path path') :
    normalizeComponents (Disk.componentsOf path') =
      normalizeComponents (Disk.componentsOf path) := by
  cases respells with
  | inside front back leads =>
      obtain ⟨more, split, nothing⟩ := leads.exists_steps back
      have text : ∀ detour : String, front ++ "/" ++ detour ++ back = front ++ "/" ++ (detour ++ back) :=
        fun _ => String.append_assoc
      rw [text, componentsOf_eq, componentsOf_eq, base_append_slash, base_append_slash front back,
        steps_append, steps_append, split]
      simp only [normalizeComponents, List.foldl_append, nothing]
  | ahead leads proper relative =>
      obtain ⟨more, split, nothing⟩ := leads.exists_steps path
      rw [componentsOf_eq, componentsOf_eq, base, base, leads.isAbsolute_append proper, relative, split]
      simp only [normalizeComponents, List.foldl_append, nothing]
  | behind nonempty =>
      rw [componentsOf_eq, componentsOf_eq, base, base, isAbsolute_append nonempty,
        steps_append_slash]

theorem normalize_of_spells {path path' : String} (spells : Spells path path') :
    normalize path' = normalize path := by
  induction spells with
  | rel path path' respells => rw [normalize_eq, normalize_eq, normalizeComponents_of_respells respells]
  | refl path => rfl
  | symm path path' _ induction => exact induction.symm
  | trans path between path' _ _ first second => exact second.trans first

/-- Normal forms are canonical and go along with joining. -/
theorem normalizesAlong (directory path : String) : NormalizesAlong directory path where
  normal := isNormal_normalize path
  components := by
    obtain ⟨up, names, named, same⟩ := exists_normalForm_of_path path
    rw [← componentsOf_normalize] at same
    refine ⟨up, names, named, ?_⟩
    rw [components_of_no_point (same ▸ not_mem_normalForm _ up names), same]
  no_point := by
    obtain ⟨up, names, named, same⟩ := exists_normalForm_of_path path
    rw [componentsOf_normalize, same]
    exact not_mem_normalForm _ up names
  fixed := IsNormal.normalize_eq
  idempotent := (isNormal_normalize path).normalize_eq
  joined := normalize_join directory path
  spelled directory' path' spells spells' := by
    have same : normalize (join directory' path') = normalize (join directory path) := by
      rw [← normalize_join, normalize_of_spells spells, normalize_of_spells spells', normalize_join]
    exact ⟨same, by simp only [Origins.candidatesIn, same]⟩

end Path
end IdlSchema
