import Surd.Context
import Surd.Proofs.TextCuts

/-! Where the key of a setting leads. A key is cut into names in just one way, and the names lead from table to table.
A key without a point is the one name of a setting, so that looking it up as it is finds the same. -/

namespace Surd
namespace Context
open Text

variable {key : String} {names : List String} {value found : Value} {settings : List (String × Value)}

/-- The names that a key is made of, with a point between each two. -/
structure Splits (key : String) (names : List String) : Prop where
  some : names ≠ []
  joined : ".".intercalate names = key
  pointless : ∀ name ∈ names, '.' ∉ name.toList

theorem splits_parts (key : String) : Splits key (parts key) where
  some := mt List.map_eq_nil_iff.mp (cutAt_ne_nil '.' key.toList)
  joined := by
    apply String.toList_injective
    have texts : (parts key).map String.toList = cutAt '.' key.toList := by
      rw [parts, List.map_map]
      exact (List.map_congr_left fun piece _ => String.toList_ofList).trans (List.map_id _)
    rw [String.toList_intercalate, texts, cutAt_eq_splitOn]
    exact List.intercalate_splitOn '.'
  pointless := by
    intro name member
    obtain ⟨piece, inside, rfl⟩ := List.mem_map.mp member
    rw [String.toList_ofList]
    exact fun held => (mem_of_mem_cutAt inside held).2 rfl

theorem Splits.parts_eq (splits : Splits key names) : parts key = names := by
  have cut : cutAt '.' key.toList = names.map String.toList := by
    rw [← splits.joined]
    exact cutAt_intercalate splits.some splits.pointless rfl
  rw [parts, cut, map_ofList_map_toList]

theorem splits_iff : Splits key names ↔ names = parts key := by
  refine ⟨fun splits => splits.parts_eq.symm, ?_⟩
  rintro rfl
  exact splits_parts key

/-- A row of names leads to a value if each name stands in the table that the names in front of it lead to. -/
inductive Leads : Value → List String → Value → Prop where
  | here {value : Value} : Leads value [] value
  | through {name : String} {entries : List (String × Value)} {inner value : Value} {rest : List String} :
      Value.entry? name entries = some inner → Leads inner rest value → Leads (.table entries) (name :: rest) value

theorem descend_eq_some_iff : descend value names = some found ↔ Leads value names found := by
  induction names generalizing value with
  | nil =>
    rw [descend, Option.some.injEq]
    constructor
    · rintro rfl
      exact .here
    · intro leads
      cases leads with
      | here => rfl
  | cons name rest ih =>
    constructor
    · intro descends
      cases value with
      | table entries =>
        rw [descend, Value.get?] at descends
        split at descends
        · next inner known => exact .through known (ih.mp descends)
        · cases descends
      | _ => cases descends
    · intro leads
      cases leads with
      | through known later =>
        rw [descend, Value.get?, known]
        exact ih.mpr later

theorem descend_eq_none_iff : descend value names = none ↔ ∀ found, ¬Leads value names found := by
  rw [Option.eq_none_iff_forall_ne_some]
  exact forall_congr' fun found => not_congr descend_eq_some_iff

/-- Both ways of looking a setting up follow its key through the tables. -/
theorem lookUp_eq_descend (present : key ≠ "") (default : Value) :
    lookUp settings key default = (descend (.table settings) (parts key)).getD default := by
  rw [lookUp, if_neg (mt String.isEmpty_iff.mp present)]
  split
  · rfl
  · next plain =>
    have whole : parts key = [key] := by
      rw [parts, cutAt_eq_splitOn, List.splitOn_eq_singleton (mt List.contains_iff_mem.mpr plain)]
      exact congrArg (fun name => [name]) String.ofList_toList
    rw [whole, descend, Value.get?]
    cases Value.entry? key settings with
    | none => rfl
    | some inner => rfl

section
variable (present : key ≠ "") (splits : Splits key names) (context : Context) (default : Value)
include present splits

theorem getAny_eq_descend :
    context.getAny (.text key) default = .ok ((descend (.table context.settings) names).getD default) := by
  have stands : (Value.text key).truth = true := by
    rw [Value.truth, Bool.not_eq_true', ← Bool.not_eq_true]
    exact mt String.isEmpty_iff.mp present
  rw [getAny, stands, ← splits.parts_eq, ← lookUp_eq_descend present]
  rfl

theorem getAny_of_leads (leads : Leads (.table context.settings) names found) :
    context.getAny (.text key) default = .ok found := by
  rw [getAny_eq_descend present splits, descend_eq_some_iff.mpr leads]
  rfl

theorem getAny_of_astray (astray : ∀ found, ¬Leads (.table context.settings) names found) :
    context.getAny (.text key) default = .ok default := by
  rw [getAny_eq_descend present splits, descend_eq_none_iff.mpr astray]
  rfl

end

end Context
end Surd
