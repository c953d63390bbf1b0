import Scim.Filter.Evaluation
import Scim.Proofs.Json.Unambiguous
import Scim.Proofs.Schema.Respelling

/-! Comparisons of an attribute that the URN of an extension qualifies. Of a document with an entry
under the URN they see that entry alone; in one without they follow the path from the top, so there
they take attributes of the core for those of the extension. -/
namespace Scim

namespace Fields

theorem find?_eq_none_congr (fields : Fields) {a b : String} (same : Caseless a b) :
    fields.find? a = none ↔ fields.find? b = none := by
  simp only [find?_eq_none_iff, key?_eq_none_iff, same.congr_right]

end Fields

namespace Path

theorem reached_nil (names : List String) :
    names.foldl (fun reached name => reached.flatMap (Json.children name)) [] = [] := by
  induction names with
  | nil => rfl
  | cons name names ih => exact ih

theorem select_null (path : Path) : path.select .null = [] := by
  have start : path.start .null = .null := by
    unfold Path.start
    split
    next same => cases same
    next => rfl
  rw [select, start]
  cases path.names with
  | nil => rfl
  | cons name names =>
    have none : [Json.null].flatMap (Json.children name) = [] := rfl
    rw [List.foldl_cons, none, reached_nil, List.flatMap_nil]

/-- A qualified path is followed from the entry of its URN, or from the top where there is none. -/
theorem select_qualified {path : Path} {urn : String} (qualified : path.schema = some urn)
    (fields : Fields) :
    path.select (.object fields) =
      (Path.mk none path.segments).select ((fields.find? urn).getD (.object fields)) := by
  unfold select Path.start
  rw [qualified]
  rfl

end Path

namespace ResourceType

variable {type : ResourceType}

theorem extension?_congr (type : ResourceType) {urn other : String} (same : Caseless urn other) :
    type.extension? urn = type.extension? other := by
  simp only [extension?, same.congr_right]

/-- A path that the URN of an extension qualifies is looked up in that extension. -/
theorem lookup_of_extension (distinct : type.Distinct) {schema : Schema}
    (attached : schema ∈ type.extensions) {path : Path} {urn : String}
    (qualified : path.schema = some urn) (own : Caseless urn schema.id) :
    type.lookup path = if path.isRoot then none
      else (walk schema.attributes path.names).map (⟨·, .extension schema⟩) := by
  have foreign : ¬ Caseless type.core.id urn :=
    fun same => not_caseless_core distinct attached (same.trans own)
  have extension : type.extension? urn = some schema :=
    (type.extension?_congr own).trans (extension?_self distinct attached)
  simp only [lookup, qualified, lookupQualified, foreign, if_false, extension, Option.bind_some]

theorem find?_of_extension (distinct : type.Distinct) {schema : Schema}
    (attached : schema ∈ type.extensions) {path : Path} {urn : String}
    (qualified : path.schema = some urn) (own : Caseless urn schema.id) :
    type.find? path = (walk schema.attributes path.names).bind (·.getLast?) := by
  rw [find?, lookup_of_extension distinct attached qualified own]
  split
  next root =>
    have names : path.names = [] := by simpa [Path.names, Path.isRoot] using root
    rw [names]
    rfl
  next => cases walk schema.attributes path.names <;> rfl

end ResourceType

namespace Filter

theorem holdsOfAny_nil (op : CompareOp) (ignoreCase : Bool) (expected : Json) :
    holdsOfAny op ignoreCase expected [] = false := by
  cases op <;> rfl

section

variable {type : ResourceType} {schema : Schema} {path : Path} {urn : String}

/-- A comparison that an extension qualifies is one of the entry under the URN, or of the whole
document where there is no entry. -/
theorem holds_of_extension (distinct : type.Distinct) (attached : schema ∈ type.extensions)
    (qualified : path.schema = some urn) (own : Caseless urn schema.id) (op : CompareOp)
    (expected : Json) (fields : Fields) :
    (compare path op expected).holds (.resource type) (.object fields) =
      holdsOfAny op (ignoresCase ((walk schema.attributes path.names).bind (·.getLast?))) expected
        ((Path.mk none path.segments).select ((fields.find? urn).getD (.object fields))) := by
  rw [holds, Scope.find?, ResourceType.find?_of_extension distinct attached qualified own,
    Path.select_qualified qualified]

/-- **An extension that is there is seen alone.** Documents that agree on the entry of an
extension are told apart by no comparison that the extension qualifies, if they have the entry. Of
a null entry no such comparison holds. Without an entry the comparison is one of the attributes of
the same names at the top of the document. -/
theorem holds_of_entry (distinct : type.Distinct) (attached : schema ∈ type.extensions)
    (qualified : path.schema = some urn) (own : Caseless urn schema.id) (op : CompareOp)
    (expected : Json) {first second : Fields} (agree : first.find? urn = second.find? urn) :
    (first.find? schema.id ≠ none →
      (compare path op expected).holds (.resource type) (.object first) =
        (compare path op expected).holds (.resource type) (.object second)) ∧
    (first.find? urn = some .null →
      (compare path op expected).holds (.resource type) (.object first) = false) ∧
    (first.find? schema.id = none →
      (compare path op expected).holds (.resource type) (.object first) =
        holdsOfAny op (ignoresCase ((walk schema.attributes path.names).bind (·.getLast?))) expected
          ((Path.mk none path.segments).select (.object first))) := by
  have compared := holds_of_extension distinct attached qualified own op expected
  refine ⟨?_, ?_, ?_⟩
  · intro given
    obtain ⟨entry, held⟩ := Option.ne_none_iff_exists'.mp
      (mt (first.find?_eq_none_congr own).mp given)
    rw [compared, compared, ← agree, held, Option.getD_some, Option.getD_some]
  · intro null
    rw [compared, null, Option.getD_some, Path.select_null, holdsOfAny_nil]
  · intro absent
    rw [compared, (first.find?_eq_none_congr own).mpr absent, Option.getD_none]

end

def inSales : Filter :=
  .compare ⟨some "URN:EXT:Work", [⟨"Department", none⟩]⟩ .equal (.string "sales")

theorem inSales_of_entry :
    inSales.holds (.resource staffType)
        (.object [("urn:ext:Work", .object [("department", .string "Support")])]) =
      inSales.holds (.resource staffType)
        (.object [("department", .string "Sales"),
          ("urn:ext:Work", .object [("department", .string "Support")])]) :=
  (holds_of_entry staffType_distinct List.mem_cons_self rfl (by decide) _ _ rfl).1 (by decide)

/-- Without the entry of the extension an attribute of the same name at the top answers for it. -/
theorem inSales_of_top :
    Fields.find? [("department", .string "Sales")] "urn:ext:Work" = none ∧
      Fields.find? [] "urn:ext:Work" = none ∧
      inSales.holds (.resource staffType) (.object [("department", .string "Sales")]) = true ∧
      inSales.holds (.resource staffType) (.object []) = false := by
  decide +kernel

end Filter
end Scim
