/-
**The fields of a document.**

The Firestore client keeps the data of a document as an object: values under field names, some of
them objects again.  A patch has a mask of field paths: the fields at these paths are set to what
the patch has there, or deleted if it has nothing there, and all other fields stay.  Two objects are
the same for the client when it does not order one before the other; numbers are compared as
numbers, so that an integer may be the same as a floating-point number.

Main definitions:

* `FirestoreClient.FieldValue`, `ObjectValue` — field values and objects;
* `FirestoreClient.ObjectValue.same` — the client takes two objects for the same;
* `FirestoreClient.ObjectValue.get`, `set`, `delete` — access by field path;
* `FirestoreClient.patchObject` — what a patch makes of an object.

Main results:

* `FirestoreClient.ObjectValue.same_iff` — **objects are the same if they are equal once all numbers
  are of one type**, so that this is an equivalence.
-/

import TinderFirestore.FirestoreStore

set_option relaxedAutoImplicit false
set_option autoImplicit false

namespace FirestoreClient

/-! ### Values -/

mutual

/-- A field value: an array, an object, or one without parts. -/
inductive FieldValue
  | scalar (v : Firestore.Value)
  | array (values : ArrayValue)
  | object (fields : ObjectValue)

/-- The values of an array, in order. -/
inductive ArrayValue
  | empty
  | value (first : FieldValue) (rest : ArrayValue)

/-- The fields of an object, in the order of their names. -/
inductive ObjectValue
  | empty
  | field (name : String) (value : FieldValue) (rest : ObjectValue)

end

mutual

def FieldValue.decEq : (a b : FieldValue) → Decidable (a = b)
  | .scalar v, .scalar w => decidable_of_iff (v = w) (by simp)
  | .scalar _, .array _ => isFalse (by simp)
  | .scalar _, .object _ => isFalse (by simp)
  | .array values, .array values' =>
      have := ArrayValue.decEq values values'
      decidable_of_iff (values = values') (by simp)
  | .array _, .scalar _ => isFalse (by simp)
  | .array _, .object _ => isFalse (by simp)
  | .object fields, .object fields' =>
      have := ObjectValue.decEq fields fields'
      decidable_of_iff (fields = fields') (by simp)
  | .object _, .scalar _ => isFalse (by simp)
  | .object _, .array _ => isFalse (by simp)

def ArrayValue.decEq : (a b : ArrayValue) → Decidable (a = b)
  | .empty, .empty => isTrue rfl
  | .empty, .value _ _ => isFalse (by simp)
  | .value _ _, .empty => isFalse (by simp)
  | .value first rest, .value first' rest' =>
      have := FieldValue.decEq first first'
      have := ArrayValue.decEq rest rest'
      decidable_of_iff (first = first' ∧ rest = rest') (by simp)

def ObjectValue.decEq : (a b : ObjectValue) → Decidable (a = b)
  | .empty, .empty => isTrue rfl
  | .empty, .field _ _ _ => isFalse (by simp)
  | .field _ _ _, .empty => isFalse (by simp)
  | .field name value rest, .field name' value' rest' =>
      have := FieldValue.decEq value value'
      have := ObjectValue.decEq rest rest'
      decidable_of_iff (name = name' ∧ value = value' ∧ rest = rest') (by simp)

end

instance : DecidableEq FieldValue := FieldValue.decEq

instance : DecidableEq ObjectValue := ObjectValue.decEq

/-! ### Comparison -/

/-- `CompareTo` says `Same` of two values without parts: numbers are compared as numbers. -/
def scalarsSame : Firestore.Value → Firestore.Value → Bool
  | .int n, .double q => decide ((n.toInt : ℚ) = q)
  | .double q, .int n => decide (q = (n.toInt : ℚ))
  | v, w => decide (v = w)

mutual

/-- `CompareTo` says `Same`. -/
def FieldValue.same : FieldValue → FieldValue → Bool
  | .scalar v, .scalar w => scalarsSame v w
  | .array values, .array values' => values.same values'
  | .object fields, .object fields' => fields.same fields'
  | _, _ => false

/-- `CompareContainer` says `Same` of two arrays. -/
def ArrayValue.same : ArrayValue → ArrayValue → Bool
  | .empty, .empty => true
  | .value first rest, .value first' rest' => first.same first' && rest.same rest'
  | _, _ => false

/-- `CompareContainer` says `Same` of two objects. -/
def ObjectValue.same : ObjectValue → ObjectValue → Bool
  | .empty, .empty => true
  | .field name value rest, .field name' value' rest' =>
      decide (name = name') && value.same value' && rest.same rest'
  | _, _ => false

end

/-- An integer as a floating-point number. -/
def toNumber : Firestore.Value → Firestore.Value
  | .int n => .double n.toInt
  | v => v

theorem scalarsSame_iff {v w : Firestore.Value} :
    scalarsSame v w = true ↔ toNumber v = toNumber w := by
  cases v <;> cases w <;> simp [scalarsSame, toNumber, Int64.toInt_inj]

mutual

/-- The value with all integers as floating-point numbers. -/
def FieldValue.numbers : FieldValue → FieldValue
  | .scalar v => .scalar (toNumber v)
  | .array values => .array values.numbers
  | .object fields => .object fields.numbers

def ArrayValue.numbers : ArrayValue → ArrayValue
  | .empty => .empty
  | .value first rest => .value first.numbers rest.numbers

def ObjectValue.numbers : ObjectValue → ObjectValue
  | .empty => .empty
  | .field name value rest => .field name value.numbers rest.numbers

end

mutual

theorem FieldValue.same_iff : ∀ {v w : FieldValue}, v.same w = true ↔ v.numbers = w.numbers
  | .scalar _, .scalar _ => by simp [FieldValue.same, FieldValue.numbers, scalarsSame_iff]
  | .array _, .array _ => by simp [FieldValue.same, FieldValue.numbers, ArrayValue.same_iff]
  | .object _, .object _ => by simp [FieldValue.same, FieldValue.numbers, ObjectValue.same_iff]
  | .scalar _, .array _ | .scalar _, .object _ | .array _, .scalar _ | .array _, .object _
  | .object _, .scalar _ | .object _, .array _ => by simp [FieldValue.same, FieldValue.numbers]

theorem ArrayValue.same_iff : ∀ {xs ys : ArrayValue}, xs.same ys = true ↔ xs.numbers = ys.numbers
  | .empty, .empty => by simp [ArrayValue.same]
  | .value _ _, .value _ _ => by
      simp [ArrayValue.same, ArrayValue.numbers, FieldValue.same_iff, ArrayValue.same_iff]
  | .empty, .value _ _ | .value _ _, .empty => by simp [ArrayValue.same, ArrayValue.numbers]

/-- **Objects are the same if they are equal once all numbers are of one type.** -/
theorem ObjectValue.same_iff :
    ∀ {obj obj' : ObjectValue}, obj.same obj' = true ↔ obj.numbers = obj'.numbers
  | .empty, .empty => by simp [ObjectValue.same]
  | .field _ _ _, .field _ _ _ => by
      simp [ObjectValue.same, ObjectValue.numbers, FieldValue.same_iff, ObjectValue.same_iff,
        and_assoc]
  | .empty, .field _ _ _ | .field _ _ _, .empty => by
      simp [ObjectValue.same, ObjectValue.numbers]

end

/-- The `==` of objects. -/
instance : Setoid ObjectValue where
  r obj obj' := obj.same obj' = true
  iseqv :=
    { refl := fun _ => ObjectValue.same_iff.2 rfl
      symm := fun h => ObjectValue.same_iff.2 (ObjectValue.same_iff.1 h).symm
      trans := fun h h' =>
        ObjectValue.same_iff.2 ((ObjectValue.same_iff.1 h).trans (ObjectValue.same_iff.1 h')) }

instance : DecidableRel ((· ≈ ·) : ObjectValue → ObjectValue → Prop) := fun obj obj' =>
  inferInstanceAs (Decidable (obj.same obj' = true))

example : ObjectValue.field "a" (.scalar (.int 1)) .empty ≈
    .field "a" (.scalar (.double 1)) .empty := by decide

/-! ### The fields of an object -/

/-- A field path; the empty one leads to the object itself. -/
abbrev FieldPath := List String

namespace ObjectValue

/-- The value of a field. -/
def child (name : String) : ObjectValue → Option FieldValue
  | empty => none
  | field name' value rest => if name = name' then some value else rest.child name

/-- `SetChild`. -/
def setChild (name : String) (value : FieldValue) : ObjectValue → ObjectValue
  | empty => field name value empty
  | field name' value' rest =>
      if name < name' then field name value (field name' value' rest)
      else if name = name' then field name value rest
      else field name' value' (rest.setChild name value)

def eraseChild (name : String) : ObjectValue → ObjectValue
  | empty => empty
  | field name' value rest =>
      if name = name' then rest.eraseChild name else field name' value (rest.eraseChild name)

end ObjectValue

/-! ### Access by path -/

/-- What is at a path. -/
def FieldValue.get : FieldPath → FieldValue → Option FieldValue
  | [], current => some current
  | _ :: _, scalar _ => none
  | _ :: _, array _ => none
  | name :: path, object fields => (fields.child name).bind (FieldValue.get path)

namespace ObjectValue

/-- `Get`. -/
def get (obj : ObjectValue) (path : FieldPath) : Option FieldValue :=
  FieldValue.get path (.object obj)

/-- `Set`, at a path with a first segment: objects on the way are made where there are none. -/
def set (obj : ObjectValue) (name : String) : FieldPath → FieldValue → ObjectValue
  | [], value => obj.setChild name value
  | name' :: path, value =>
      let inner := match obj.child name with
        | some (.object fields) => fields
        | _ => empty
      obj.setChild name (.object (inner.set name' path value))

/-- `Delete`, at a path with a first segment: where there is no object on the way, there is nothing
to delete. -/
def delete (obj : ObjectValue) (name : String) : FieldPath → ObjectValue
  | [] => obj.eraseChild name
  | name' :: path =>
      match obj.child name with
      | some (.object fields) => obj.setChild name (.object (fields.delete name' path))
      | _ => obj

end ObjectValue

/-! ### Patches -/

/-- One path of a patch. -/
def patchField (value obj : ObjectValue) : FieldPath → ObjectValue
  | [] => obj
  | name :: path =>
      match value.get (name :: path) with
      | none => obj.delete name path
      | some newValue => obj.set name path newValue

/-- `PatchObject`. -/
def patchObject (mask : List FieldPath) (value obj : ObjectValue) : ObjectValue :=
  mask.foldl (patchField value) obj

end FirestoreClient
