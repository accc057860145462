import Darkroom.Graph.Kind
import Mathlib.Data.List.Nodup
import Mathlib.Tactic.Common

/-!
# Slots of kinds

Nodes and slots are looked up by a key in lists where no key occurs twice. The slots of a kind have
different names, so that a name finds exactly the slot that has it (`NodeKind.input?_eq_some_iff`).
A link that is allowed brings values of the type of its slot
(`NodeKind.valueType_eq_of_output_eq`).
-/

namespace Darkroom

/-! ### Lists with different keys -/

theorem nodup_map_append_singleton {α : Type} {key : α → String} {entries : List α}
    (hnodup : (entries.map key).Nodup) {entry : α} (hfree : key entry ∉ entries.map key) :
    ((entries ++ [entry]).map key).Nodup := by
  rw [List.map_append, List.map_singleton, ← List.concat_eq_append]
  exact List.Nodup.concat hfree hnodup

/-- In a list of different keys, the search for a key finds any entry that has it. -/
theorem find?_key_eq_some_iff {α : Type} (key : α → String) {entries : List α}
    (hnodup : (entries.map key).Nodup) {k : String} {entry : α} :
    entries.find? (fun x => key x = k) = some entry ↔ entry ∈ entries ∧ key entry = k := by
  constructor
  · intro h
    exact ⟨List.mem_of_find?_eq_some h, by simpa using List.find?_some h⟩
  · rintro ⟨hmem, hkey⟩
    cases hfound : entries.find? fun x => key x = k with
    | none =>
      rw [List.find?_eq_none] at hfound
      exact absurd (decide_eq_true hkey) (hfound entry hmem)
    | some found =>
      have hfoundKey : key found = k := by simpa using List.find?_some hfound
      rw [List.inj_on_of_nodup_map hnodup (List.mem_of_find?_eq_some hfound) hmem
        (hfoundKey.trans hkey.symm)]

/-! ### Kinds -/

namespace NodeKind

theorem nodup_inputs (kind : NodeKind) : (kind.inputs.map Slot.name).Nodup := by
  cases kind <;> decide

theorem input?_eq_some_iff {kind : NodeKind} {name : String} {slot : Slot} :
    kind.input? name = some slot ↔ slot ∈ kind.inputs ∧ slot.name = name :=
  find?_key_eq_some_iff Slot.name kind.nodup_inputs

/-- The type of the values of a kind; the end node passes its image on. -/
def valueType : NodeKind → ValueType
  | endNode => .image
  | kind => kind.output

theorem valueType_eq_ite (kind : NodeKind) :
    kind.valueType = if kind = endNode then .image else kind.output := by
  cases kind <;> rfl

/-- No slot takes what the end node gives, so the values of a kind that a slot takes are of the
slot's type. -/
theorem valueType_eq_of_output_eq {kind consumer : NodeKind} {slot : Slot}
    (hslot : slot ∈ consumer.inputs) (htype : kind.output = slot.type) :
    kind.valueType = slot.type := by
  have hnone : ∀ other ∈ consumer.inputs, other.type ≠ .none := by
    cases consumer <;> decide
  cases kind with
  | endNode => exact absurd htype.symm (hnone slot hslot)
  | _ => exact htype

end NodeKind

end Darkroom
