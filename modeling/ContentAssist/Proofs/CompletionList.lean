import ContentAssist.Protocol.CompletionList
import Mathlib.Algebra.Group.Int.Defs
import Mathlib.Data.List.Forall2

/-! A list says the same in both of its forms. An editor that knows shared values reads them into
the items; what it then has of each item is what the expanded list has. -/

namespace ContentAssist

namespace Json

theorem member?_ofFields_append (front back : List (String × Option Json)) (key : String) :
    (ofFields (front ++ back)).member? key =
      ((ofFields front).member? key).or ((ofFields back).member? key) := by
  induction front with
  | nil => rfl
  | cons field front ih =>
      obtain ⟨name, value⟩ := field
      rw [List.cons_append, lookup_ofFields_cons, lookup_ofFields_cons, ih]
      split
      next found => rw [Option.or_of_isSome found.2]
      next => rfl

theorem member?_ofFields_of_not_mem {fields : List (String × Option Json)} {key : String}
    (absent : key ∉ fields.map (·.1)) : (ofFields fields).member? key = none := by
  induction fields with
  | nil => rfl
  | cons field fields ih =>
      obtain ⟨name, value⟩ := field
      rw [List.map_cons, List.mem_cons, not_or] at absent
      rw [lookup_ofFields_cons, if_neg fun found => absent.1 found.1.symm, ih absent.2]

theorem member?_ofFields_of_mem {fields : List (String × Option Json)}
    (distinct : (fields.map (·.1)).Nodup) {key : String} {value : Option Json}
    (listed : (key, value) ∈ fields) : (ofFields fields).member? key = value := by
  induction fields with
  | nil => cases listed
  | cons field fields ih =>
      obtain ⟨name, first⟩ := field
      rw [List.map_cons, List.nodup_cons] at distinct
      rw [lookup_ofFields_cons]
      rcases List.mem_cons.mp listed with same | later
      · cases same
        split
        next => rfl
        next unset =>
            have none : value = none := by simpa using unset
            rw [member?_ofFields_of_not_mem distinct.1, none]
      · have other : name ≠ key :=
          fun same => distinct.1 (List.mem_map.mpr ⟨_, later, same.symm⟩)
        rw [if_neg fun found => other found.1, ih distinct.2 later]

def code? (value : Json) : Option Int32 :=
  value.integer?.bind fun number =>
    if -2 ^ 31 ≤ number ∧ number < 2 ^ 31 then some (Int32.ofInt number) else none

@[simp] theorem code?_ofCode (code : Int32) : (ofCode code).code? = some code := by
  have within : -2 ^ 31 ≤ code.toInt ∧ code.toInt < 2 ^ 31 := ⟨code.le_toInt, code.toInt_lt⟩
  rw [code?, ofCode, integer?, Option.bind_some, if_pos within, Int32.ofInt_toInt]

end Json

/-- What is inserted when an item is chosen, and how. -/
structure Insertion where
  edit : Option TextEdit
  format : Option TextFormat
  mode : Option InsertMode

def Item.insertion (item : Item) : Insertion :=
  { edit := item.textEdit, format := item.insertTextFormat, mode := item.insertTextMode }

namespace Insertion

def keys : List String :=
  ["textEdit", "textEditText", "insertText", "insertTextFormat", "insertTextMode"]

/-- An item without an edit of its own has one at the shared range, with the text it gives
for it or else its label. -/
def edit? (shared item : Json) : Option TextEdit :=
  match item.member? "textEdit" with
  | some edit => TextEdit.ofJson? edit
  | none => do
      let range ← (shared.member? "editRange").bind EditRange.ofJson?
      let text ← ((item.member? "textEditText").or (item.member? "label")).bind Json.string?
      return range.edit text

def code? (key : String) (shared item : Json) : Option Int32 :=
  ((item.member? key).or (shared.member? key)).bind Json.code?

def ofJson (shared item : Json) : Insertion :=
  { edit := edit? shared item
    format := (code? "insertTextFormat" shared item).map TextFormat.mk
    mode := (code? "insertTextMode" shared item).map InsertMode.mk }

end Insertion

namespace Item

theorem member?_expanded {key : String} (other : key ∉ Insertion.keys) (item : Item)
    (defaults : ItemDefaults) :
    (item.expanded defaults).toJson.member? key = item.toJson.member? key := by
  simp only [Insertion.keys, List.mem_cons, not_or] at other
  obtain ⟨notEdit, -, notText, notFormat, notMode, -⟩ := other
  unfold expanded
  split <;> simp [toJson, fields, Json.lookup_ofFields_cons, Ne.symm notEdit, Ne.symm notText,
    Ne.symm notFormat, Ne.symm notMode]

theorem insertion_expanded (item : Item) (defaults : ItemDefaults) :
    (item.expanded defaults).insertion =
      { edit :=
          item.textEdit.or (defaults.editRange.map (·.edit (item.insertText.getD item.label)))
        format := item.insertTextFormat.or defaults.insertTextFormat
        mode := item.insertTextMode.or defaults.insertTextMode } := by
  cases placed : item.textEdit <;> cases shared : defaults.editRange <;>
    simp [expanded, insertion, placed, shared]

end Item

namespace ItemDefaults

theorem member?_toJson (defaults : ItemDefaults) {key : String} {value : Option Json}
    (listed : (key, value) ∈ defaults.fields) : defaults.toJson.member? key = value :=
  Json.member?_ofFields_of_mem (by simp [fields]) listed

theorem toJson_of_isEmpty {defaults : ItemDefaults} (empty : defaults.isEmpty) :
    defaults.toJson = .object [] := by
  simp only [isEmpty, Bool.and_eq_true, Option.isNone_iff_eq_none] at empty
  obtain ⟨⟨⟨noRange, noFormat⟩, noMode⟩, noData⟩ := empty
  simp [toJson, fields, noRange, noFormat, noMode, noData, Json.ofFields]

end ItemDefaults

namespace CompletionList

def itemJson (list : CompletionList) (item : Item) : Json :=
  .ofFields (list.itemFields item)

theorem member?_itemJson (list : CompletionList) (item : Item) {key : String}
    {value : Option Json} (listed : (key, value) ∈ list.itemFields item) :
    (list.itemJson item).member? key = value :=
  Json.member?_ofFields_of_mem (by simp [itemFields, Item.fields]) listed

/-- A list without shared values leaves them out, which says the same. -/
theorem shared_toJson (list : CompletionList) :
    (list.toJson.member? "itemDefaults").getD (.object []) = list.defaults.toJson := by
  have given : list.toJson.member? "itemDefaults" =
      if list.defaults.isEmpty then none else some list.defaults.toJson :=
    Json.member?_ofFields_of_mem (by simp) (by simp)
  rw [given]
  split
  next empty => exact (ItemDefaults.toJson_of_isEmpty empty).symm
  next => rfl

theorem edit?_itemJson (list : CompletionList) (item : Item) :
    Insertion.edit? list.defaults.toJson (list.itemJson item) =
      item.textEdit.or (list.defaults.editRange.map
        (·.edit (item.insertText.getD item.label))) := by
  have edit : (list.itemJson item).member? "textEdit" = item.textEdit.map TextEdit.toJson :=
    list.member?_itemJson item (by simp [itemFields, Item.fields])
  have label : (list.itemJson item).member? "label" = some (.string item.label) :=
    list.member?_itemJson item (by simp [itemFields, Item.fields])
  have text : (list.itemJson item).member? "textEditText" =
      (if list.defaults.editRange.isSome && item.textEdit.isNone then item.insertText
        else none).map .string :=
    list.member?_itemJson item (by simp [itemFields])
  have range : list.defaults.toJson.member? "editRange" =
      list.defaults.editRange.map EditRange.toJson :=
    list.defaults.member?_toJson (by simp [ItemDefaults.fields])
  rw [Insertion.edit?, edit, label, text, range]
  cases item.textEdit with
  | some edit => simp
  | none =>
      cases list.defaults.editRange with
      | none => simp
      | some range => cases item.insertText <;> simp [Json.string?]

theorem code?_itemJson (list : CompletionList) (item : Item) {key : String}
    {own shared : Option Int32} (listed : (key, own.map Json.ofCode) ∈ list.itemFields item)
    (listed' : (key, shared.map Json.ofCode) ∈ list.defaults.fields) :
    Insertion.code? key list.defaults.toJson (list.itemJson item) = own.or shared := by
  rw [Insertion.code?, list.member?_itemJson item listed, list.defaults.member?_toJson listed']
  cases own <;> cases shared <;> simp

theorem ofJson_itemJson (list : CompletionList) (item : Item) :
    Insertion.ofJson list.defaults.toJson (list.itemJson item) =
      (item.expanded list.defaults).insertion := by
  have format : Insertion.code? "insertTextFormat" list.defaults.toJson (list.itemJson item) =
      (item.insertTextFormat.map (·.code)).or (list.defaults.insertTextFormat.map (·.code)) :=
    list.code?_itemJson item (by simp [itemFields, Item.fields]; rfl)
      (by simp [ItemDefaults.fields]; rfl)
  have mode : Insertion.code? "insertTextMode" list.defaults.toJson (list.itemJson item) =
      (item.insertTextMode.map (·.code)).or (list.defaults.insertTextMode.map (·.code)) :=
    list.code?_itemJson item (by simp [itemFields, Item.fields]; rfl)
      (by simp [ItemDefaults.fields]; rfl)
  rw [Insertion.ofJson, edit?_itemJson, format, mode, Item.insertion_expanded]
  congr 1
  · cases item.insertTextFormat <;> cases list.defaults.insertTextFormat <;> rfl
  · cases item.insertTextMode <;> cases list.defaults.insertTextMode <;> rfl

theorem member?_itemJson_of_not_mem (list : CompletionList) (item : Item) {key : String}
    (other : key ∉ Insertion.keys) :
    (list.itemJson item).member? key = (item.expanded list.defaults).toJson.member? key := by
  have notText : key ∉ ["textEditText"] :=
    fun same => other (by simp [Insertion.keys, List.mem_singleton.mp same])
  calc
    (list.itemJson item).member? key =
        (item.toJson.member? key).or (Json.member? key (.ofFields _)) :=
      Json.member?_ofFields_append _ _ key
    _ = item.toJson.member? key := by
      rw [Json.member?_ofFields_of_not_mem (by exact notText), Option.or_none]
    _ = (item.expanded list.defaults).toJson.member? key :=
      (Item.member?_expanded other item list.defaults).symm

/-- The written list has the items of the expanded one, in its order, and is incomplete if
that is. With the values it shares, an editor reads from each written item the edit, the
format and the mode of the expanded one, and all other members are the same. -/
theorem toJson_agrees_expanded (list : CompletionList) :
    let shared := (list.toJson.member? "itemDefaults").getD (.object [])
    ∃ written,
      list.toJson.member? "items" = some (.array written) ∧
      list.toJson.member? "isIncomplete" = some (.bool list.expanded.isIncomplete) ∧
      List.Forall₂
        (fun json item =>
          Insertion.ofJson shared json = item.insertion ∧
            ∀ key ∉ Insertion.keys, json.member? key = item.toJson.member? key)
        written list.expanded.items := by
  intro shared
  refine ⟨list.items.map list.itemJson, ?_, ?_, ?_⟩
  · exact Json.member?_ofFields_of_mem (by simp) (by simp [itemJson])
  · exact Json.member?_ofFields_of_mem (by simp) (by simp [expanded])
  · have same : shared = list.defaults.toJson := list.shared_toJson
    rw [same, expanded, List.forall₂_map_left_iff, List.forall₂_map_right_iff, List.forall₂_same]
    intro item _
    exact ⟨list.ofJson_itemJson item, fun key other => list.member?_itemJson_of_not_mem item other⟩

end CompletionList

end ContentAssist
