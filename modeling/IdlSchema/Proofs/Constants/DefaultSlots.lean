import IdlSchema.Proofs.Constants.CheckedModel

/-!
# Defaults that are put in their places

The defaults of a model may be collected before any of them is checked, each with the place of its
field.  They are then checked in one pass and put in their places afterwards, in a model without
defaults.  That comes to the same as checking each of them where it stands.
-/

namespace IdlSchema

/-! ## Places -/

/-- The place of a field in a method. -/
inductive MethodSlot where
  | parameter (field : Nat)
  | exception (field : Nat)

/-- The place of a field in a model. -/
inductive FieldSlot where
  | field (struct field : Nat)
  | parameter (service method field : Nat)
  | exception (service method field : Nat)

/-- The place of a field in a method that is at a place itself. -/
def MethodSlot.inService (service method : Nat) : MethodSlot → FieldSlot
  | parameter field => .parameter service method field
  | exception field => .exception service method field

/-- Puts a value in place of the default of a field. -/
def Field.put (value? : Option ConstantValue) (field : Field ConstantValue) : Field ConstantValue :=
  { field with default? := value? }

/-- Puts a value in its place in a struct; nothing happens where there is none. -/
def StructType.put (field : Nat) (value? : Option ConstantValue) (struct : StructType ConstantValue) :
    StructType ConstantValue :=
  { struct with fields := struct.fields.modify field (.put value?) }

/-- Puts a value in its place in a method; nothing happens where there is none. -/
def Method.put (slot : MethodSlot) (value? : Option ConstantValue) (method : Method ConstantValue) :
    Method ConstantValue :=
  match slot with
  | .parameter field => { method with parameters := method.parameters.modify field (.put value?) }
  | .exception field => { method with exceptions := method.exceptions.modify field (.put value?) }

/-- Puts a value in its place in a service; nothing happens where there is none. -/
def ServiceType.put (method : Nat) (slot : MethodSlot) (value? : Option ConstantValue)
    (service : ServiceType ConstantValue) : ServiceType ConstantValue :=
  { service with methods := service.methods.modify method (.put slot value?) }

/-- Puts a value in its place in a model; nothing happens where there is none. -/
def Model.put (slot : FieldSlot) (value? : Option ConstantValue) (model : Model ConstantValue) :
    Model ConstantValue :=
  match slot with
  | .field struct field => { model with structs := model.structs.modify struct (.put field value?) }
  | .parameter service method field =>
      { model with
        services := model.services.modify service (.put method (.parameter field) value?) }
  | .exception service method field =>
      { model with
        services := model.services.modify service (.put method (.exception field) value?) }

/-! ## Models without defaults -/

section

variable {ν : Type}

/-- A field without its default. -/
def Field.bare (field : Field ν) : Field ConstantValue :=
  { header := field.header, id := field.id, requiredness := field.requiredness
    type := field.type, default? := none }

/-- A struct without defaults. -/
def StructType.bare (struct : StructType ν) : StructType ConstantValue :=
  { header := struct.header, file := struct.file, id := struct.id, kind := struct.kind
    fields := struct.fields.map (·.bare) }

/-- A method without defaults. -/
def Method.bare (method : Method ν) : Method ConstantValue :=
  { header := method.header, oneWay := method.oneWay, returnType := method.returnType
    parameters := method.parameters.map (·.bare), exceptions := method.exceptions.map (·.bare) }

/-- A service without defaults. -/
def ServiceType.bare (service : ServiceType ν) : ServiceType ConstantValue :=
  { header := service.header, file := service.file, id := service.id, base? := service.base?
    methods := service.methods.map (·.bare) }

/-- A model without defaults and constants. -/
def Model.bare (model : Model ν) : Model ConstantValue :=
  { typedefs := model.typedefs, enums := model.enums, structs := model.structs.map (·.bare)
    services := model.services.map (·.bare), constants := [] }

end

/-! ## Pending defaults -/

/-- A default that has not been checked yet, and the place of its field. -/
structure PendingDefault (σ : Type) where
  slot : σ
  file : FileId
  type : TypeId
  literal : Literal

namespace PendingDefault

variable {σ τ α : Type}

/-- The same default with its place seen from further out. -/
def outward (place : σ → τ) (pending : PendingDefault σ) : PendingDefault τ :=
  { slot := place pending.slot, file := pending.file, type := pending.type
    literal := pending.literal }

theorem outward_id : (outward id : PendingDefault σ → PendingDefault σ) = id :=
  rfl

/-- The pending defaults of the elements of a list, with the place of each element. -/
def listed (pending : α → List (PendingDefault σ)) (list : List α) :
    List (PendingDefault (Nat × σ)) :=
  list.zipIdx.flatMap fun (a, place) => (pending a).map (outward (place, ·))

theorem listed_cons (pending : α → List (PendingDefault σ)) (a : α) (list : List α) :
    listed pending (a :: list) = (pending a).map (outward (0, ·)) ++
      (listed pending list).map (outward fun slot => (slot.1 + 1, slot.2)) := by
  rw [listed, List.zipIdx_cons', List.flatMap_cons, List.flatMap_map, listed, List.map_flatMap]
  simp only [List.map_map]
  rfl

end PendingDefault

open PendingDefault

/-- The pending default of a field, if it has one. -/
def Field.pending (file : FileId) (field : Field Literal) : List (PendingDefault Unit) :=
  (field.default?.map fun literal =>
    { slot := (), file, type := field.type, literal : PendingDefault Unit }).toList

/-- The pending defaults of a struct. -/
def StructType.pending (struct : StructType Literal) : List (PendingDefault Nat) :=
  (listed (Field.pending struct.file) struct.fields).map (outward (·.1))

/-- The pending defaults of a method: those of its parameters and then those of its exceptions. -/
def Method.pending (file : FileId) (method : Method Literal) : List (PendingDefault MethodSlot) :=
  (listed (Field.pending file) method.parameters).map (outward fun slot => .parameter slot.1) ++
    (listed (Field.pending file) method.exceptions).map (outward fun slot => .exception slot.1)

/-- The pending defaults of a service. -/
def ServiceType.pending (service : ServiceType Literal) :
    List (PendingDefault (Nat × MethodSlot)) :=
  listed (Method.pending service.file) service.methods

/-- The pending defaults of a model, in the order in which their fields are linked. -/
def Model.pending (model : Model Literal) : List (PendingDefault FieldSlot) :=
  (listed StructType.pending model.structs).map
      (outward fun (struct, field) => .field struct field) ++
    (listed ServiceType.pending model.services).map
      (outward fun (service, method, slot) => slot.inService service method)

/-! ## Filling -/

section

variable {σ τ γ δ : Type}

/-- Puts values in the places of pending defaults, one after the other. -/
def fill (put : σ → Option ConstantValue → γ → γ) (pending : List (PendingDefault σ))
    (values : List (Option ConstantValue)) (start : γ) : γ :=
  (pending.zip values).foldl (fun result (pending, value?) => put pending.slot value? result) start

theorem fill_append {put : σ → Option ConstantValue → γ → γ}
    {pending pending' : List (PendingDefault σ)} {values values' : List (Option ConstantValue)}
    (same : pending.length = values.length)
    (start : γ) : fill put (pending ++ pending') (values ++ values') start =
      fill put pending' values' (fill put pending values start) := by
  rw [fill, List.zip_append same, List.foldl_append]
  rfl

/-- To fill a part and then make the whole of it is to fill the whole. -/
theorem fill_outward {put : σ → Option ConstantValue → γ → γ}
    {put' : τ → Option ConstantValue → δ → δ} {place : σ → τ} {whole : γ → δ}
    (puts : ∀ slot value? part, put' (place slot) value? (whole part) = whole (put slot value? part))
    (pending : List (PendingDefault σ)) (values : List (Option ConstantValue)) (start : γ) :
    fill put' (pending.map (outward place)) values (whole start) =
      whole (fill put pending values start) := by
  rw [fill, List.zip_map_left, List.foldl_map]
  exact List.foldl_hom whole fun part _ => puts _ _ part

end

namespace ConstantScope

variable (scope : ConstantScope) {σ τ α γ δ ε : Type}

/-- Checks a pending default. -/
def checkPending (pending : PendingDefault σ) : Checking (Option ConstantValue) :=
  scope.check (scope.valueOf scope.fuel) pending.file pending.type pending.literal

/-- Checks all pending defaults and then all constants, and puts the defaults in their places. -/
def fillModel : Checking (Model ConstantValue) := do
  let values ← scope.model.pending.mapM scope.checkPending
  let constants ← scope.checkConstants
  let filled := fill Model.put scope.model.pending values scope.model.bare
  return { filled with constants := constants.filterMap id }

/-- An action comes to checking pending defaults and putting them in their places. -/
def Fills (put : σ → Option ConstantValue → γ → γ) (pending : List (PendingDefault σ)) (start : γ)
    (action : Checking γ) : Prop :=
  ∀ state, action state =
    (fill put pending (pending.mapM scope.checkPending state).1 start,
      (pending.mapM scope.checkPending state).2)

variable {scope}

theorem length_mapM_checkPending (pending : List (PendingDefault σ)) (state : CheckState) :
    pending.length = (pending.mapM scope.checkPending state).1.length := by
  have all : List.Forall₂ (fun _ _ => True) pending (pending.mapM scope.checkPending state).1 :=
    forall₂_mapM (fun _ _ _ => trivial) state
  exact all.length_eq

theorem mapM_checkPending_outward (place : σ → τ) (pending : List (PendingDefault σ)) :
    (pending.map (outward place)).mapM scope.checkPending = pending.mapM scope.checkPending := by
  rw [List.mapM_map]
  rfl

namespace Fills

variable {put : σ → Option ConstantValue → γ → γ} {pending : List (PendingDefault σ)} {start : γ}
  {action : Checking γ}

theorem pure (a : γ) : scope.Fills put [] a (Pure.pure a) :=
  fun _ => rfl

/-- What fills a part fills the whole that is made of it. -/
theorem map {put' : τ → Option ConstantValue → δ → δ} {place : σ → τ} {whole : γ → δ}
    (puts : ∀ slot value? part, put' (place slot) value? (whole part) = whole (put slot value? part))
    (fills : scope.Fills put pending start action) :
    scope.Fills put' (pending.map (outward place)) (whole start) (do
      let part ← action
      return whole part) := by
  intro state
  rw [mapM_checkPending_outward, fill_outward puts]
  change (whole (action state).1, (action state).2) = _
  rw [fills]

/-- Two parts are filled one after the other, since neither touches the other. -/
theorem pair {put' : τ → Option ConstantValue → δ → δ} {put'' : α → Option ConstantValue → ε → ε}
    {pending' : List (PendingDefault τ)} {start' : δ} {action' : Checking δ} {place : σ → α}
    {place' : τ → α} {whole : γ → δ → ε}
    (puts : ∀ slot value? part part', put'' (place slot) value? (whole part part') =
      whole (put slot value? part) part')
    (puts' : ∀ slot value? part part', put'' (place' slot) value? (whole part part') =
      whole part (put' slot value? part'))
    (fills : scope.Fills put pending start action) (fills' : scope.Fills put' pending' start' action') :
    scope.Fills put'' (pending.map (outward place) ++ pending'.map (outward place'))
      (whole start start') (do
        let part ← action
        let part' ← action'
        return whole part part') := by
  intro state
  have both : (pending.map (outward place) ++ pending'.map (outward place')).mapM
      scope.checkPending state =
        ((pending.mapM scope.checkPending state).1 ++
            (pending'.mapM scope.checkPending (pending.mapM scope.checkPending state).2).1,
          (pending'.mapM scope.checkPending (pending.mapM scope.checkPending state).2).2) := by
    rw [List.mapM_append, mapM_checkPending_outward, mapM_checkPending_outward]
    rfl
  have same : pending.length = (pending.mapM scope.checkPending state).1.length :=
    length_mapM_checkPending pending state
  have first := fill_outward (fun slot value? part => puts slot value? part start') pending
    (pending.mapM scope.checkPending state).1 start
  rw [both]
  dsimp only
  rw [fill_append (by simpa using same), first, fill_outward fun slot value? => puts' slot value? _]
  change (whole (action state).1 (action' (action state).2).1, (action' (action state).2).2) = _
  rw [fills, fills']

/-- The elements of a list are filled one after the other, each at its place. -/
theorem list {bare : α → γ} {pending : α → List (PendingDefault σ)} {check : α → Checking γ}
    {list : List α} (each : ∀ a ∈ list, scope.Fills put (pending a) (bare a) (check a)) :
    scope.Fills (fun slot value? results => results.modify slot.1 (put slot.2 value?))
      (listed pending list) (list.map bare) (list.mapM check) := by
  induction list with
  | nil =>
      rw [List.mapM_nil]
      exact .pure []
  | cons a list induction =>
      rw [listed_cons, List.map_cons, List.mapM_cons]
      apply pair
      · exact fun _ _ _ _ => rfl
      · exact fun _ _ _ _ => rfl
      · exact each a List.mem_cons_self
      · exact induction fun other member => each other (List.mem_cons_of_mem a member)

end Fills

/-! ## Models that are filled -/

theorem fills_checkDefault (file : FileId) (field : Field Literal) :
    scope.Fills (fun _ => Field.put) (field.pending file) field.bare
      (scope.checkDefault file field) := by
  intro state
  rw [checkDefault, Field.pending]
  cases field.default? with
  | none => rfl
  | some literal => rfl

theorem fills_checkStruct (struct : StructType Literal) :
    scope.Fills StructType.put struct.pending struct.bare (scope.checkStruct struct) :=
  .map (fun _ _ _ => rfl) (.list fun field _ => fills_checkDefault struct.file field)

theorem fills_checkMethod (file : FileId) (method : Method Literal) :
    scope.Fills Method.put (method.pending file) method.bare (scope.checkMethod file method) :=
  .pair (fun _ _ _ _ => rfl) (fun _ _ _ _ => rfl)
    (.list fun field _ => fills_checkDefault file field)
    (.list fun field _ => fills_checkDefault file field)

theorem fills_checkService (service : ServiceType Literal) :
    scope.Fills (fun slot => ServiceType.put slot.1 slot.2) service.pending service.bare
      (scope.checkService service) := by
  have fills : scope.Fills (fun slot : Nat × MethodSlot => ServiceType.put slot.1 slot.2)
      (service.pending.map (outward id)) service.bare (scope.checkService service) :=
    .map (fun _ _ _ => rfl) (.list fun method _ => fills_checkMethod service.file method)
  rwa [outward_id, List.map_id] at fills

/-- Defaults that are put in their places afterwards come to the same model. -/
theorem fillModel_eq (scope : ConstantScope) : scope.fillModel = scope.checkModel := by
  have fills : scope.Fills Model.put scope.model.pending scope.model.bare (do
      let structs ← scope.model.structs.mapM scope.checkStruct
      let services ← scope.model.services.mapM scope.checkService
      return { scope.model.bare with structs, services }) :=
    .pair (fun _ _ _ _ => rfl)
      (fun slot _ _ _ => by rcases slot with ⟨service, method, _ | _⟩ <;> rfl)
      (.list fun struct _ => fills_checkStruct struct)
      (.list fun service _ => fills_checkService service)
  funext state
  -- Either way all constants are checked after the defaults.
  have filled := congrArg (fun result : Model ConstantValue × CheckState =>
    ({ result.1 with
        constants := (scope.checkConstants result.2).1.filterMap id : Model ConstantValue },
      (scope.checkConstants result.2).2)) (fills state)
  exact filled.symm

end ConstantScope
end IdlSchema
