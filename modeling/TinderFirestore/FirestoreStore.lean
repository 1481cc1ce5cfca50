/-
**The document store.**

What the app uses of Cloud Firestore: documents are dictionaries whose values carry their type, a
collection maps document ids to documents, `setData` replaces a whole document, `getDocument`
reads one, and a query orders the documents by a string field, starts strictly after a value and
is limited to a number of documents.

Main definitions:

* `Firestore.Value`, `Firestore.Dictionary` — a field value and a document;
* `Firestore.Value.asString`, `Firestore.Value.asInt` — the casts `as? String` and `as? Int`;
* `Firestore.Collection`, `Firestore.setData`, `Firestore.getDocument` — a collection of documents
  and its operations;
* `Firestore.Query`, `Firestore.getDocuments` — a query and its answer.

Main results:

* `Firestore.getDocument_setData`, `Firestore.getDocument_setData_of_ne` — a write replaces the
  document it is addressed to and no other;
* `Firestore.getDocuments_fieldValues` — the answer to a query is a page of the field it orders by.
-/

import Mathlib.Data.List.AList
import Mathlib.Data.String.Basic
import TinderFirestore.KeysetPage
import TinderFirestore.SwiftInt

set_option relaxedAutoImplicit false
set_option autoImplicit false

namespace Firestore

/-! ### Documents -/

/-- A field value.  The types the app never casts to (timestamps, blobs, references, points,
arrays, maps) are kept together, with a description. -/
inductive Value
  | null
  | bool (b : Bool)
  | int (n : Int64)
  | double (q : ℚ)
  | string (s : String)
  | other (description : String)
  deriving DecidableEq

/-- The cast `as? String`. -/
def Value.asString : Value → Option String
  | .string s => some s
  | _ => none

/-- The cast `as? Int`: a number that is an `Int` exactly.  The numbers and truth values of a
document arrive as `NSNumber`s, so `true` is 1 and `21.0` is 21. -/
def Value.asInt : Value → Option Int64
  | .int n => some n
  | .double q => if q.den = 1 then Swift.int64Exactly q.num else none
  | .bool b => some (if b then 1 else 0)
  | _ => none

/-- A document: what is stored under each field name. -/
abbrev Dictionary := String → Option Value

/-- The dictionary with the listed fields. -/
def Dictionary.ofList (fields : List (String × Value)) : Dictionary := fun key => fields.lookup key

@[simp] theorem Dictionary.ofList_nil (key : String) : Dictionary.ofList [] key = none := rfl

theorem Dictionary.ofList_cons (field : String) (value : Value)
    (fields : List (String × Value)) (key : String) :
    Dictionary.ofList ((field, value) :: fields) key =
      if key = field then some value else Dictionary.ofList fields key := by
  rw [Dictionary.ofList, List.lookup_cons]
  by_cases h : key = field
  · rw [if_pos h, beq_iff_eq.2 h]
  · rw [if_neg h, beq_false_of_ne h]
    rfl

/-- What a dictionary holds, if no field is listed twice. -/
theorem Dictionary.ofList_eq_some_iff {fields : List (String × Value)}
    (hnodup : (fields.map Prod.fst).Nodup) {key : String} {value : Value} :
    Dictionary.ofList fields key = some value ↔ (key, value) ∈ fields := by
  induction fields with
  | nil => simp
  | cons x fields ih =>
      obtain ⟨field, v⟩ := x
      rw [List.map_cons, List.nodup_cons] at hnodup
      rw [Dictionary.ofList_cons, List.mem_cons, Prod.mk.injEq]
      by_cases h : key = field
      · subst h
        have hno : (key, value) ∉ fields := fun hmem => hnodup.1 (List.mem_map.2 ⟨_, hmem, rfl⟩)
        simp [hno, eq_comm]
      · rw [if_neg h, ih hnodup.2]
        simp [h]

/-! ### Collections -/

/-- A collection: documents under distinct ids. -/
abbrev Collection := AList fun _ : String => Dictionary

/-- `setData`: replaces the whole document. -/
def setData (document : String) (data : Dictionary) (users : Collection) : Collection :=
  users.insert document data

/-- `getDocument`. -/
def getDocument (users : Collection) (document : String) : Option Dictionary :=
  users.lookup document

@[simp] theorem getDocument_setData (document : String) (data : Dictionary) (users : Collection) :
    getDocument (setData document data users) document = some data :=
  AList.lookup_insert users

theorem getDocument_setData_of_ne {document document' : String} (data : Dictionary)
    (users : Collection) (h : document' ≠ document) :
    getDocument (setData document data users) document' = getDocument users document' :=
  AList.lookup_insert_ne h

@[simp] theorem getDocument_empty (document : String) :
    getDocument (∅ : Collection) document = none := rfl

/-- What a write leaves under an id. -/
theorem getDocument_setData_eq_some {document document' : String} {data d : Dictionary}
    {users : Collection} (h : getDocument (setData document data users) document' = some d) :
    (document' = document ∧ d = data) ∨ getDocument users document' = some d := by
  rcases eq_or_ne document' document with rfl | hne
  · rw [getDocument_setData, Option.some_inj] at h
    exact Or.inl ⟨rfl, h.symm⟩
  · rw [getDocument_setData_of_ne data users hne] at h
    exact Or.inr h

/-- No write removes a document. -/
theorem isSome_getDocument_setData {document document' : String} {data : Dictionary}
    {users : Collection} :
    (getDocument (setData document data users) document').isSome ↔
      document' = document ∨ (getDocument users document').isSome := by
  rcases eq_or_ne document' document with rfl | hne
  · simp
  · simp [getDocument_setData_of_ne data users hne, hne]

/-! ### Queries -/

/-- A query `order(by:).start(after:).limit(to:)`. -/
structure Query where
  /-- The field to order by. -/
  orderBy : String
  /-- The value to start after. -/
  startAfter : String
  /-- The largest number of documents to return. -/
  limit : ℕ

/-- The documents of a collection, each with its id. -/
def documents (users : Collection) : List (String × Dictionary) :=
  users.entries.map fun e => (e.1, e.2)

theorem mem_documents {users : Collection} {document : String} {d : Dictionary} :
    (document, d) ∈ documents users ↔ getDocument users document = some d := by
  rw [getDocument, ← Option.mem_def, AList.mem_lookup_iff, documents, List.mem_map]
  constructor
  · rintro ⟨⟨i, d'⟩, he, heq⟩
    obtain ⟨rfl, rfl⟩ := Prod.mk.inj heq
    exact he
  · intro h
    exact ⟨_, h, rfl⟩

theorem documents_ids_nodup (users : Collection) : ((documents users).map Prod.fst).Nodup := by
  have h : (documents users).map Prod.fst = users.keys := by
    simp [documents, AList.keys, List.keys]
  rw [h]
  exact users.keys_nodup

/-- The string a document holds in a field. -/
def stringField (field : String) (x : String × Dictionary) : Option String :=
  (x.2 field).bind Value.asString

/-- The documents a query returns, in order.  Strings are ordered by their code points.  A document
that holds no string in the field is left out; every writer of the app stores one there. -/
def getDocuments (q : Query) (users : Collection) : List Dictionary :=
  (Keyset.page (stringField q.orderBy) q.limit q.startAfter (documents users)).map fun x => x.2.2

/-- The strings that the documents of a collection hold in a field. -/
def fieldValues (field : String) (users : Collection) : List String :=
  (Keyset.keyed (stringField field) (documents users)).map Prod.fst

/-- The values of the field a query orders by, over the documents it returns. -/
theorem getDocuments_fieldValues (q : Query) (users : Collection) :
    (getDocuments q users).map (fun d => (d q.orderBy).bind Value.asString) =
      ((Keyset.page (stringField q.orderBy) q.limit q.startAfter (documents users)).map
        Prod.fst).map some := by
  rw [getDocuments, List.map_map, List.map_map]
  refine List.map_congr_left fun x hx => ?_
  exact (Keyset.mem_keyed.1 (Keyset.mem_keyed_of_mem_page hx)).2

end Firestore
