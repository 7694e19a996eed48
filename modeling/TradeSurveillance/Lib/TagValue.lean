import Mathlib.Data.List.Basic

/-!
# Fields of tags and values

A field is a tag, an equals sign, a value and the byte SOH. Text made of fields is split into them again at the SOH bytes and at the first
equals sign of each: a value may have any byte but SOH in it, a tag also no equals sign.
-/

namespace TagValue

def soh : UInt8 := 1

def equalsSign : UInt8 := 61

/-- The text of a field. -/
def fieldText (field : List UInt8 × List UInt8) : List UInt8 := field.1 ++ equalsSign :: (field.2 ++ [soh])

/-- The text of fields. -/
def joinFields (fields : List (List UInt8 × List UInt8)) : List UInt8 := fields.flatMap fieldText

/-- A field without its SOH, split at its first equals sign. -/
def splitField (field : List UInt8) : List UInt8 × List UInt8 :=
  (field.takeWhile (· ≠ equalsSign), (field.dropWhile (· ≠ equalsSign)).tail)

/-- The pieces between the SOH bytes, but for the one behind the last, each split. -/
def splitFields (text : List UInt8) : List (List UInt8 × List UInt8) := (text.splitOn soh).dropLast.map splitField

/-- A field that can be found again. -/
structure Sound (field : List UInt8 × List UInt8) : Prop where
  tag : equalsSign ∉ field.1 ∧ soh ∉ field.1
  value : soh ∉ field.2

variable {field : List UInt8 × List UInt8} {fields : List (List UInt8 × List UInt8)}

/-- Fields can be found again when their tags and their values can. -/
theorem forall_sound_iff : (∀ field ∈ fields, Sound field) ↔
    (∀ tag ∈ fields.map Prod.fst, equalsSign ∉ tag ∧ soh ∉ tag) ∧ ∀ value ∈ fields.map Prod.snd, soh ∉ value := by
  rw [List.forall_mem_map, List.forall_mem_map, ← forall₂_and]
  exact forall₂_congr fun _ _ => ⟨fun h => ⟨h.tag, h.value⟩, fun h => ⟨h.1, h.2⟩⟩

theorem splitField_text (h : Sound field) : splitField (field.1 ++ equalsSign :: field.2) = field := by
  have htag : ∀ b ∈ field.1, decide (b ≠ equalsSign) = true := by
    intro b hb
    refine decide_eq_true ?_
    rintro rfl
    exact h.tag.1 hb
  unfold splitField
  rw [List.takeWhile_append_of_pos htag, List.dropWhile_append_of_pos htag, List.takeWhile_cons_of_neg (by simp),
    List.dropWhile_cons_of_neg (by simp), List.append_nil, List.tail_cons]

/-- Splitting undoes joining. -/
theorem splitFields_joinFields (h : ∀ field ∈ fields, Sound field) : splitFields (joinFields fields) = fields := by
  have hsplit : ∀ {fields : List (List UInt8 × List UInt8)}, (∀ field ∈ fields, Sound field) →
      (joinFields fields).splitOn soh = fields.map (fun field => field.1 ++ equalsSign :: field.2) ++ [[]] := by
    intro fields
    induction fields with
    | nil => exact fun _ => List.splitOn_nil soh
    | cons field fields ih =>
      intro h
      obtain ⟨hfield, hfields⟩ := List.forall_mem_cons.1 h
      have hsoh : soh ∉ field.1 ++ equalsSign :: field.2 := by
        rw [List.mem_append, List.mem_cons]
        rintro (hmem | heq | hmem)
        · exact hfield.tag.2 hmem
        · exact absurd heq (by decide)
        · exact hfield.value hmem
      have htext : joinFields (field :: fields) = (field.1 ++ equalsSign :: field.2) ++ soh :: joinFields fields := by
        simp [joinFields, fieldText]
      rw [htext, List.splitOn_append_cons_self_of_not_mem hsoh, ih hfields]
      rfl
  rw [splitFields, hsplit h, List.dropLast_concat, List.map_map]
  refine (List.map_congr_left ?_).trans (List.map_id fields)
  intro field hfield
  exact splitField_text (h field hfield)

theorem joinFields_append (fields fields' : List (List UInt8 × List UInt8)) :
    joinFields (fields ++ fields') = joinFields fields ++ joinFields fields' := List.flatMap_append

end TagValue
