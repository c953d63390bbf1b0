import Scim.Filter.Evaluation
import Scim.Proofs.Schema.Respelling

/-! Comparisons of the elements of an attribute, made on the whole document and on each element.
Both see the same values. They treat the case of texts alike as well, unless the attribute has no
sub-attributes: then only an element answers to the name `value`. -/
namespace Scim

theorem Json.itemChildren_eq_flatMap (name : String) (items : List Json) :
    itemChildren name items = items.flatMap (children name) := by
  induction items with
  | nil => rfl
  | cons item rest ih => rw [itemChildren, ih, List.flatMap_cons]

namespace Path

def under (name : String) (path : Path) : Path := ⟨none, ⟨name, none⟩ :: path.segments⟩

theorem reached_flatMap (names : List String) (values : List Json) :
    names.foldl (fun reached name => reached.flatMap (Json.children name)) values =
      values.flatMap fun value =>
        names.foldl (fun reached name => reached.flatMap (Json.children name)) [value] := by
  induction names generalizing values with
  | nil => simp
  | cons name more ih =>
    simp only [List.foldl_cons, List.flatMap_cons, List.flatMap_nil, List.append_nil]
    rw [ih, List.flatMap_assoc]
    congr 1
    funext value
    exact (ih _).symm

theorem select_unqualified {path : Path} (unqualified : path.schema = none) (fragment : Json) :
    path.select fragment =
      (path.names.foldl (fun reached name => reached.flatMap (Json.children name))
        [fragment]).flatMap Json.present := by
  unfold select start
  rw [unqualified]

/-- A path through an array reaches of the document what its rest reaches of the items. -/
theorem select_of_array {path : Path} (unqualified : path.schema = none)
    (onward : path.segments ≠ []) {fields : Fields} {name : String} {items : List Json}
    (held : fields.find? name = some (.array items)) :
    (path.under name).select (.object fields) = items.flatMap path.select := by
  obtain ⟨first, more, parts⟩ := List.exists_cons_of_ne_nil onward
  have entered : (Json.object fields).children name = [.array items] := by
    rw [Json.children, held]
    rfl
  have spread : path.names.foldl (fun reached name => reached.flatMap (Json.children name))
      [.array items] =
        path.names.foldl (fun reached name => reached.flatMap (Json.children name)) items := by
    have within : [Json.array items].flatMap (Json.children first.name) =
        items.flatMap (Json.children first.name) := by
      rw [List.flatMap_singleton, Json.children, Json.itemChildren_eq_flatMap]
    rw [Path.names, parts, List.map_cons, List.foldl_cons, List.foldl_cons, within]
  calc (path.under name).select (.object fields)
      = (path.names.foldl (fun reached name => reached.flatMap (Json.children name))
          [.array items]).flatMap Json.present := by
        rw [select_unqualified rfl, under, Path.names, List.map_cons, List.foldl_cons,
          List.flatMap_singleton, entered]
        rfl
    _ = items.flatMap path.select := by
        rw [spread, reached_flatMap, List.flatMap_assoc]
        congr 1
        funext item
        exact (select_unqualified unqualified item).symm

end Path

theorem findAttribute?_of_walk {attributes : List Attribute} {name : String}
    {definition : Attribute} (walked : walk attributes [name] = some [definition]) :
    findAttribute? attributes name = some definition := by
  rw [walk] at walked
  split at walked
  next found =>
    cases walked
    exact found
  next => cases walked

theorem Attribute.segments_ne_nil_of_find? {definition inner : Attribute} {path : Path}
    (known : definition.find? path = some inner) : path.segments ≠ [] := by
  intro root
  unfold Attribute.find? at known
  rw [root, Path.names, root] at known
  split at known
  next same => cases same
  next =>
    rw [List.map_nil, walk] at known
    cases known

namespace ResourceType

variable {type : ResourceType} {definition : Attribute} {owner : Owner}

theorem find?_under {name : String}
    (looked : type.lookup ⟨none, [⟨name, none⟩]⟩ = some ⟨[definition], owner⟩)
    (unowned : owner.extension? = none) {path : Path} {chain : List Attribute}
    (walked : walk definition.subAttributes path.names = some chain) :
    type.find? (path.under name) = (definition :: chain).getLast? := by
  have names : (path.under name).names = name :: path.names := rfl
  have schema : (path.under name).schema = none := rfl
  have below : (path.under name).isRoot = false := rfl
  simp only [find?, lookup, names, schema, below, Bool.false_eq_true, if_false, lookupUnqualified,
    walk]
  rcases (lookup_cases looked).2 with ⟨rfl, common⟩ | ⟨rfl, core, uncommon⟩ | ⟨schema, _, rfl, _⟩
  · have head : findAttribute? commonAttributes name = some definition :=
      findAttribute?_of_walk common
    simp [head, walked]
  · have missing : findAttribute? commonAttributes name = none := by
      have absent := uncommon rfl
      simp only [Path.names, List.map_cons, List.map_nil, walk] at absent
      split at absent
      next => cases absent
      next found => exact found
    have head : findAttribute? type.core.attributes name = some definition :=
      findAttribute?_of_walk core
    simp [missing, head, walked]
  · cases unowned

/-- What an element knows the whole document knows by the same definition, if the attribute has
sub-attributes. -/
theorem find?_under_of_known {name : String}
    (looked : type.lookup ⟨none, [⟨name, none⟩]⟩ = some ⟨[definition], owner⟩)
    (unowned : owner.extension? = none) {path : Path} {inner : Attribute}
    (known : definition.find? path = some inner) (composed : definition.subAttributes ≠ []) :
    type.find? (path.under name) = some inner := by
  unfold Attribute.find? at known
  split at known
  next leaf _ => exact absurd leaf composed
  next =>
    obtain ⟨chain, walked, last⟩ := Option.bind_eq_some_iff.mp known
    rw [find?_under looked unowned walked]
    cases chain with
    | nil => cases last
    | cons first more => exact last

end ResourceType

namespace Filter

theorem holdsOfAny_flatMap {α : Type} (op : CompareOp) (ignoreCase : Bool) (expected : Json)
    (items : List α) (reach : α → List Json) :
    holdsOfAny op ignoreCase expected (items.flatMap reach) =
      items.any fun item => holdsOfAny op ignoreCase expected (reach item) := by
  cases op with
  | present =>
    simp only [holdsOfAny]
    induction items with
    | nil => rfl
    | cons item rest ih =>
      rw [List.flatMap_cons, List.any_cons, ← ih]
      cases reach item <;> rfl
  | _ => exact List.any_flatMap

theorem holdsOfAny_of_textless {op : CompareOp} {expected : Json}
    (textless : op = .present ∨ ∀ text, expected ≠ .string text) (first second : Bool)
    (reached : List Json) :
    holdsOfAny op first expected reached = holdsOfAny op second expected reached := by
  rcases textless with rfl | textless
  · rfl
  · have same (actual : Json) :
        op.holds first actual expected = op.holds second actual expected := by
      cases expected with
      | string text => exact absurd rfl (textless text)
      | _ => cases actual <;> rfl
    simp only [holdsOfAny, same]

section

variable {type : ResourceType} {definition inner : Attribute} {owner : Owner} {name : String}
  {path : Path}

/-- **A document is compared as its elements are.** A comparison of what lies under an attribute
whose entry is an array holds of the document if it holds of an item, with the case of texts as the
document's schema has it. It holds of an item by itself in the same cases, if the attribute has
sub-attributes, for then both find one definition; and else wherever case does not count or both
treat it alike. -/
theorem holds_iff_exists_element
    (looked : type.lookup ⟨none, [⟨name, none⟩]⟩ = some ⟨[definition], owner⟩)
    (unowned : owner.extension? = none) (unqualified : path.schema = none)
    (known : definition.find? path = some inner) (op : CompareOp) (expected : Json)
    {fields : Fields} {items : List Json} (held : fields.find? name = some (.array items)) :
    (definition.subAttributes ≠ [] → type.find? (path.under name) = some inner) ∧
    (definition.subAttributes ≠ [] ∨ op = .present ∨ (∀ text, expected ≠ .string text) ∨
        ignoresCase (type.find? (path.under name)) = inner.ignoresCase →
      ((compare (path.under name) op expected).holds (.resource type) (.object fields) = true ↔
        ∃ item ∈ items, (compare path op expected).holds (.element definition) item = true)) ∧
    ((compare (path.under name) op expected).holds (.resource type) (.object fields) = true ↔
      ∃ item ∈ items, holdsOfAny op (ignoresCase (type.find? (path.under name))) expected
        (path.select item) = true) := by
  have found := ResourceType.find?_under_of_known looked unowned known
  have whole : (compare (path.under name) op expected).holds (.resource type) (.object fields) =
      items.any fun item => holdsOfAny op (ignoresCase (type.find? (path.under name))) expected
        (path.select item) := by
    rw [holds, Scope.find?, Path.select_of_array unqualified (Attribute.segments_ne_nil_of_find? known) held,
      holdsOfAny_flatMap]
  refine ⟨found, fun alike => ?_, ?_⟩
  · have element (item : Json) : (compare path op expected).holds (.element definition) item =
        holdsOfAny op (ignoresCase (type.find? (path.under name))) expected (path.select item) := by
      rw [holds, Scope.find?, known]
      rcases alike with composed | present | textless | same
      · rw [found composed]
      · exact holdsOfAny_of_textless (.inl present) ..
      · exact holdsOfAny_of_textless (.inr textless) ..
      · rw [same, ignoresCase]
    simp only [whole, element, List.any_eq_true]
  · rw [whole, List.any_eq_true]

end

def mailAttribute : Attribute where
  name := "emails"
  type := .complex
  multiValued := true
  subAttributes := [{ name := "type" }, { name := "labels", multiValued := true }]

def mails : List Json := [.object [("type", .string "home")], .object [("TYPE", .string "work")]]

theorem workMail_of_element :
    (compare (Path.under "emails" ⟨none, [⟨"Type", none⟩]⟩) .equal (.string "Work")).holds
        (.resource staffType) (.object [("Emails", .array mails)]) = true ∧
      ∃ item ∈ mails, (compare ⟨none, [⟨"Type", none⟩]⟩ .equal (.string "Work")).holds
        (.element mailAttribute) item = true := by
  have looked : staffType.lookup ⟨none, [⟨"emails", none⟩]⟩ = some ⟨[mailAttribute], .core⟩ := by
    decide +kernel
  have known : mailAttribute.find? ⟨none, [⟨"Type", none⟩]⟩ = some { name := "type" } := by
    decide +kernel
  have held : Fields.find? [("Emails", .array mails)] "emails" = some (.array mails) := by
    decide +kernel
  have whole : (compare (Path.under "emails" ⟨none, [⟨"Type", none⟩]⟩) .equal (.string "Work")).holds
      (.resource staffType) (.object [("Emails", .array mails)]) = true := by decide +kernel
  have agrees := (holds_iff_exists_element looked rfl rfl known .equal (.string "Work") held).2.1
    (.inl (List.cons_ne_nil _ _))
  exact ⟨whole, agrees.mp whole⟩

/-- The schema URIs of a resource are compared exactly as elements, but on the whole document their
case is ignored. -/
theorem schemaUri_of_document :
    ∃ definition, staffType.lookup ⟨none, [⟨"schemas", none⟩]⟩ = some ⟨[definition], .common⟩ ∧
      definition.caseExact = true ∧
      definition.find? ⟨none, [⟨"value", none⟩]⟩ = some definition ∧
      (compare (Path.under "schemas" ⟨none, [⟨"value", none⟩]⟩) .equal (.string "URN:X")).holds
        (.resource staffType) (.object [("schemas", .array [.string "urn:x"])]) = true ∧
      ¬ ∃ item ∈ [Json.string "urn:x"],
        (compare ⟨none, [⟨"value", none⟩]⟩ .equal (.string "URN:X")).holds (.element definition)
          item = true := by
  refine ⟨{ name := "schemas", type := .reference, multiValued := true, caseExact := true }, ?_⟩
  decide +kernel

end Filter
end Scim
