import IdlSchema.Proofs.Path.NormalPaths

/-!
# Reading through normal paths

A disk has no links, so to enter a directory and to leave it again leads back.  Where a path leads to,
its normal form leads to as well: it takes no other steps, and it is no longer.  So what can be read at
a path can be read at its normal form.
-/

namespace IdlSchema

/-- What can be read at a path can be read at its normal form, as where no directory is a link. -/
def FileSystem.Folds (system : FileSystem Id) : Prop :=
  ∀ path text, system.read path = .ok text → system.read (Path.normalize path) = .ok text

/-! ## Characters of normal paths -/

/-- Parts cost no more than the list, each with what a separator costs at least. -/
theorem Text.sum_partsBetween_le {α : Type} (separates : α → Bool) (price : α → Nat) (due : Nat)
    (covered : ∀ a, separates a = true → due ≤ price a) (list : List α) :
    ((partsBetween separates list).map fun part => (part.map price).sum + due).sum ≤
      (list.map price).sum + due := by
  induction list with
  | nil => simp [partsBetween]
  | cons a list induction =>
      rw [partsBetween]
      cases parts : partsBetween separates list with
      | nil => exact absurd parts (partsBetween_ne_nil separates list)
      | cons part others =>
          simp only [parts, List.map_cons, List.sum_cons] at induction ⊢
          split
          · rename_i separated
            have := covered a separated
            simp only [List.map_cons, List.map_nil, List.sum_cons, List.sum_nil]
            omega
          · simp only [List.map_cons, List.sum_cons]
            omega

namespace Path

/-- The sum of what the characters of a text cost. -/
def cost (price : Char → Nat) (text : String) : Nat :=
  (text.toList.map price).sum

variable {price : Char → Nat}

@[simp]
theorem cost_append (front back : String) :
    cost price (front ++ back) = cost price front + cost price back := by
  simp [cost]

@[simp]
theorem cost_empty : cost price "" = 0 :=
  rfl

theorem cost_slash : cost price "/" = price '/' := by
  simp [cost]

theorem Component.text_ofPart (part : String) : (ofPart part).text = part := by
  rw [ofPart]
  split
  · rename_i point
    exact point.symm
  · split
    · rename_i points
      exact points.symm
    · rfl

/-- The steps of a path cost no more than the path, each with a slash behind it. -/
theorem sum_steps_le (path : String) :
    ((steps path).map fun step => cost price step.text + price '/').sum ≤
      cost price path + price '/' := by
  have parts := Text.sum_partsBetween_le (· == '/') price (price '/')
    (fun c separated => by rw [eq_of_beq separated]) path.toList
  refine le_trans ?_ parts
  rw [steps, componentsOfParts, List.map_map]
  refine le_trans ((List.filter_sublist.map _).sum_le_sum fun _ _ => Nat.zero_le _) ?_
  simp [Function.comp_def, Component.text_ofPart, cost]

/-- Texts with slashes between them cost as much as with slashes behind them, but for the last. -/
theorem cost_intercalate {texts : List String} (nonempty : texts ≠ []) :
    cost price ("/".intercalate texts) + price '/' =
      (texts.map fun text => cost price text + price '/').sum := by
  induction texts with
  | nil => exact absurd rfl nonempty
  | cons first rest induction =>
      cases rest with
      | nil => simp
      | cons next rest =>
          have others := induction (List.cons_ne_nil _ _)
          rw [String.intercalate_cons_cons, cost_append, cost_append, cost_slash, List.map_cons,
            List.sum_cons, ← others]
          omega

/-- Normalizing only leaves components out. -/
theorem normalizeComponents_sublist (list : List Component) :
    (normalizeComponents list).Sublist list := by
  induction list using List.reverseRecOn with
  | nil => exact .slnil
  | append_singleton list component induction =>
      rw [normalizeComponents] at induction ⊢
      rw [List.foldl_concat]
      have pushed (reversed : List Component) :
          (push reversed component).reverse.Sublist (reversed.reverse ++ [component]) := by
        unfold push
        split
        · exact List.sublist_append_left _ _
        · rw [List.reverse_cons, List.append_assoc]
          exact List.sublist_append_left _ _
        · rw [List.reverse_cons]
      exact (pushed _).trans (induction.append_right _)

/-- A path is the root or not, and then its steps in normal form. -/
theorem exists_steps_normalize (path : String) : ∃ list : List Component,
    (∀ component ∈ list, component.IsStep) ∧ list.Sublist (steps path) ∧
      normalizeComponents (Disk.componentsOf path) = base path ++ list ∧
      normalize path = (if isAbsolute path then "/" else "") ++
        "/".intercalate (list.map Component.text) := by
  obtain ⟨up, names, named, same⟩ := exists_normalForm_of_path path
  have all := @isStep_of_mem_normalForm up names named
  refine ⟨_, all, ?_, same, ?_⟩
  · have sublist := normalizeComponents_sublist (Disk.componentsOf path)
    rw [same, componentsOf_eq] at sublist
    exact (List.append_sublist_append_left _).mp sublist
  · rw [normalize_eq, same, normalForm, ofComponents_eq _ all]

theorem exists_of_isAbsolute {path : String} (absolute : isAbsolute path = true) :
    ∃ rest, path = "/" ++ rest := by
  obtain ⟨chars, same⟩ := List.head?_eq_some_iff.mp (eq_of_beq absolute)
  exact ⟨String.ofList chars, String.toList_injective (by simp [same])⟩

/-- No character stands more often in the normal form of a path than in the path. -/
theorem cost_normalize_le (price : Char → Nat) (path : String) :
    cost price (normalize path) ≤ cost price path := by
  obtain ⟨list, _, sublist, _, text⟩ := exists_steps_normalize path
  have fewer : (list.map fun step => cost price step.text + price '/').sum ≤
      ((steps path).map fun step => cost price step.text + price '/').sum :=
    (sublist.map _).sum_le_sum fun _ _ => Nat.zero_le _
  have between : cost price ("/".intercalate (list.map Component.text)) ≤
      (list.map fun step => cost price step.text + price '/').sum - price '/' := by
    cases list with
    | nil => simp
    | cons first rest =>
        have texts := @cost_intercalate price ((first :: rest).map Component.text)
          (List.cons_ne_nil _ _)
        rw [List.map_map] at texts
        exact Nat.le_sub_of_add_le texts.le
  rw [text, cost_append]
  cases absolute : isAbsolute path with
  | false =>
      have all := @sum_steps_le price path
      simp only [Bool.false_eq_true, if_false, cost_empty]
      omega
  | true =>
      -- The first slash is paid for, since it stands in front of all steps.
      obtain ⟨rest, rfl⟩ := exists_of_isAbsolute absolute
      have all := @sum_steps_le price rest
      rw [steps_slash] at fewer
      rw [cost_append, cost_slash]
      simp only [if_true, cost_slash]
      omega

theorem mem_of_mem_normalize {path : String} {c : Char} (member : c ∈ (normalize path).toList) :
    c ∈ path.toList := by
  by_contra absent
  have none : cost (fun other => if other = c then 1 else 0) path = 0 := by
    refine List.sum_eq_zero_iff.mpr (List.forall_mem_map.mpr fun other listed => if_neg ?_)
    rintro rfl
    exact absent listed
  have none' := Nat.le_zero.mp (none ▸ cost_normalize_le _ path)
  have free := List.forall_mem_map.mp (List.sum_eq_zero_iff.mp none') c member
  simp at free

theorem utf8ByteSize_eq_cost (text : String) : text.utf8ByteSize = cost Char.utf8Size text := by
  have each (chars : List Char) :
      (String.ofList chars).utf8ByteSize = (chars.map Char.utf8Size).sum := by
    induction chars with
    | nil => rfl
    | cons c chars induction =>
        rw [String.ofList_cons, String.utf8ByteSize_append, String.utf8ByteSize_singleton, induction,
          List.map_cons, List.sum_cons]
  rw [cost, ← each, String.ofList_toList]

end Path

/-! ## Steps on a disk -/

namespace Disk

variable {disk : Disk}

/-- The operations on a disk that does not change. -/
def snapshot (disk : Disk) : FileSystem Id :=
  { read := fun path => disk.read path
    isFile := fun path => (disk.read? path).isSome
    write := fun path text => (disk.write path text).map fun _ => () }

theorem walk_concat (components : List Path.Component) (component : Path.Component) :
    disk.walk (components ++ [component]) = disk.walk components >>= (disk.step · component) := by
  rw [walk, List.foldlM_append, walk]
  simp only [List.foldlM_cons, List.foldlM_nil, bind_pure]

theorem step_eq_ok {spot next : Spot} {component : Path.Component}
    (steps : disk.step spot component = .ok next) :
    disk.entry? spot = some .directory ∧ next = enter spot component := by
  unfold step at steps
  split at steps
  · rename_i here
    split at steps
    · cases steps
    · exact ⟨here, (Except.ok.inj steps).symm⟩
  · cases steps
  · cases steps

/-- To enter a directory and to leave it again leads back. -/
theorem enter_parent_of_name {spot inner : Spot} {name : String}
    (inward : disk.step spot (.name name) = .ok inner)
    (inside : disk.entry? inner = some .directory) : enter inner .parent = spot := by
  obtain ⟨here, rfl⟩ := step_eq_ok inward
  cases spot with
  | below trail => simp [enter]
  | outside => cases inside
  | unknown => cases here

/-- Where components lead to, their normal form leads to as well. -/
theorem walk_normalizeComponents {components : List Path.Component} {spot : Spot}
    (leads : disk.walk components = .ok spot) :
    disk.walk (Path.normalizeComponents components) = .ok spot := by
  induction components using List.reverseRecOn generalizing spot with
  | nil => exact leads
  | append_singleton components component induction =>
      rw [walk_concat] at leads
      cases first : disk.walk components with
      | error failure =>
          rw [first] at leads
          cases leads
      | ok middle =>
          rw [first] at leads
          have last : disk.step middle component = .ok spot := leads
          obtain ⟨here, same⟩ := step_eq_ok last
          have so_far := induction first
          have onwards : disk.walk (Path.normalizeComponents components ++ [component]) = .ok spot := by
            rw [walk_concat, so_far]
            exact last
          rw [Path.normalizeComponents] at so_far onwards ⊢
          rw [List.foldl_concat]
          cases component with
          | current =>
              rw [Path.push_current, same]
              exact so_far
          | root =>
              rw [Path.push_root, List.reverse_cons]
              exact onwards
          | name text =>
              rw [Path.push_name, List.reverse_cons]
              exact onwards
          | parent =>
              by_cases left : ∃ text rest, components.foldl Path.push [] = .name text :: rest
              · obtain ⟨text, rest, stack⟩ := left
                rw [stack, List.reverse_cons, walk_concat] at so_far
                rw [stack, Path.push_parent_name]
                cases before : disk.walk rest.reverse with
                | error failure =>
                    rw [before] at so_far
                    cases so_far
                | ok outer =>
                    rw [before] at so_far
                    have inward : disk.step outer (.name text) = .ok middle := so_far
                    rw [same, enter_parent_of_name inward here]
              · have no_name : ∀ text rest, components.foldl Path.push [] ≠ .name text :: rest :=
                  fun text rest stack => left ⟨text, rest, stack⟩
                rw [Path.push_parent_of_head no_name, List.reverse_cons]
                exact onwards

/-! ## Reading at normal paths -/

theorem fault?_eq_none_iff {path : String} : fault? path = none ↔
    '\x00' ∉ path.toList ∧ path ≠ "" ∧ path.utf8ByteSize ≤ pathLimit := by
  rw [fault?]
  split
  · simp_all
  · split
    · simp_all
    · split <;> simp_all

theorem read_eq_ok_iff {path text : String} : disk.read path = .ok text ↔
    fault? path = none ∧ namesDirectory path = false ∧
      ∃ spot, disk.walk (componentsOf path) = .ok spot ∧ disk.entry? spot = some (.file text) := by
  rw [read, follow]
  cases fault? path with
  | some failure => exact iff_of_false (by rintro ⟨⟩) (by rintro ⟨⟨⟩, _⟩)
  | none =>
      dsimp only
      cases disk.walk (componentsOf path) with
      | error failure => exact iff_of_false (by rintro ⟨⟩) (by rintro ⟨_, _, _, ⟨⟩, _⟩)
      | ok spot =>
          dsimp only [bind, Except.bind]
          cases here : disk.entry? spot with
          | none => simp [here]
          | some entry => cases entry <;> cases namesDirectory path <;> simp [here]

/-- Behind the last slash of a normal path stands its last step. -/
theorem namesDirectory_of_steps {list : List Path.Component}
    (all : ∀ component ∈ list, component.IsStep) (nonempty : list ≠ []) (front : String) :
    namesDirectory (front ++ "/".intercalate (list.map Path.Component.text)) = false := by
  cases list using List.reverseRecOn with
  | nil => exact absurd rfl nonempty
  | append_singleton list last =>
      obtain ⟨plain, proper⟩ : '/' ∉ last.text.toList ∧ last.text.toList ≠ [] := by
        cases all last (by simp) with
        | current | parent => decide
        | name named => exact ⟨named.plain, fun empty => named.nonempty (String.toList_eq_nil_iff.mp empty)⟩
      have behind := Path.intercalate_concat_append (list.map Path.Component.text) "" last.text
      rw [String.empty_append] at behind
      rw [List.map_append, List.map_singleton, ← behind, namesDirectory, ← String.append_assoc,
        String.toList_append, List.getLast?_append_of_ne_nil _ proper]
      exact beq_false_of_ne fun slash => plain (List.mem_of_getLast? slash)

theorem read_normalize {path text : String} (read : disk.read path = .ok text) :
    disk.read (Path.normalize path) = .ok text := by
  obtain ⟨sound, _, spot, leads, here⟩ := read_eq_ok_iff.mp read
  obtain ⟨no_nul, _, short⟩ := fault?_eq_none_iff.mp sound
  have leads' : disk.walk (componentsOf (Path.normalize path)) = .ok spot := by
    rw [Path.componentsOf_normalize]
    exact walk_normalizeComponents leads
  obtain ⟨list, all, _, same, written⟩ := Path.exists_steps_normalize path
  have nonempty : list ≠ [] := by
    rintro rfl
    -- Without steps it leads to a directory.
    rw [Path.componentsOf_normalize, same, List.append_nil, Path.base] at leads'
    split at leads' <;>
    · obtain rfl := Except.ok.inj leads'
      cases here
  have proper : Path.normalize path ≠ "" := by
    intro empty
    have none : componentsOf "" = [] := by decide +kernel
    have steps := Path.componentsOf_normalize path
    rw [empty, none, same] at steps
    exact nonempty (List.append_eq_nil_iff.mp steps.symm).2
  have plain : namesDirectory (Path.normalize path) = false :=
    written ▸ namesDirectory_of_steps all nonempty _
  have short' : (Path.normalize path).utf8ByteSize ≤ pathLimit := by
    rw [Path.utf8ByteSize_eq_cost] at short ⊢
    exact (Path.cost_normalize_le _ path).trans short
  have sound' : fault? (Path.normalize path) = none :=
    fault?_eq_none_iff.mpr ⟨fun nul => no_nul (Path.mem_of_mem_normalize nul), proper, short'⟩
  exact read_eq_ok_iff.mpr ⟨sound', plain, spot, leads', here⟩

/-- Disks have no links. -/
theorem folds_snapshot (disk : Disk) : disk.snapshot.Folds :=
  fun _ _ => read_normalize

end Disk
end IdlSchema
