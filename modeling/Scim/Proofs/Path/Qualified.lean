import Scim.Proofs.Path.Brackets
import Scim.Proofs.Path.Faults

/-! Texts of paths behind a URN. They are read as by themselves, whatever their filters hold: an
accepted path has the URN for its schema besides, and a fault lies further behind by the size of the
URN and its colon. -/
namespace Scim

/-- A fault behind more text is the same fault, further behind by the size of that text. -/
theorem Fault.toError_append (front : String) {text : String} {fault : Fault}
    (within : fault.rest <:+ text.toList) : fault.toError (front ++ text) =
      ⟨fault.kind, front ++ text, (fault.toError text).offset + front.utf8ByteSize⟩ := by
  obtain ⟨before, parts⟩ := within
  have front : front.utf8ByteSize = utf8Size front.toList := by
    rw [← utf8ByteSize_ofList, String.ofList_toList]
  simp only [toError, String.toList_append, ← parts, utf8Size_append, front]
  congr 1
  omega

namespace Path

variable {path : Path} {text urn : String}

theorem toList_qualified (urn text : String) :
    (urn ++ ":" ++ text).toList = urn.toList ++ ':' :: text.toList := by
  simp

theorem schema_of_parse_qualified (starts : StartsUrn urn.toList) (noBracket : '[' ∉ urn.toList)
    {key : String} (parsed : parse (urn ++ ":" ++ key) = .ok path) :
    path.schema = match splitLastColon (key.toList.takeWhile (· != '[')) with
      | some (before, _) => some (urn ++ ":" ++ String.ofList before)
      | none => some urn := by
  rw [← ((parse_eq_ok_iff (by simp)).mp parsed).1, toList_qualified,
    (ahead_qualified noBracket key.toList).1, splitUrn_behind starts]
  cases splitLastColon (key.toList.takeWhile (· != '[')) with
  | none => simp
  | some parts => simp [String.ext_iff]

/-- Without a colon ahead of a filter the whole text is segments. -/
theorem parse_unqualified (given : text ≠ "")
    (noColon : ':' ∉ text.toList.takeWhile (· != '[')) :
    parse text = ((takeSegments false text.toList).map (⟨none, ·⟩)).mapError
      (Fault.toError text) := by
  have given : text.isEmpty = false := by simpa using given
  rw [parse, given, splitUrn_unqualified noColon]
  simp [List.takeWhile_append_dropWhile]

/-- Behind a URN the segments are those of the text by itself. -/
theorem parse_behind (starts : StartsUrn urn.toList) (noBracket : '[' ∉ urn.toList)
    (noColon : ':' ∉ text.toList.takeWhile (· != '[')) :
    parse (urn ++ ":" ++ text) = ((takeSegments false text.toList).map (⟨some urn, ·⟩)).mapError
      (Fault.toError (urn ++ ":" ++ text)) := by
  have given : (urn ++ ":" ++ text).isEmpty = false := by simp
  obtain ⟨ahead, behind⟩ := ahead_qualified noBracket text.toList
  rw [parse, given, toList_qualified, ahead, behind, splitUrn_qualified starts noColon]
  simp [List.takeWhile_append_dropWhile]

theorem noColon_of_parse (given : text ≠ "") (parsed : parse text = .ok path)
    (unqualified : path.schema = none) : ':' ∉ text.toList.takeWhile (· != '[') := by
  have given : text.isEmpty = false := by simpa using given
  obtain ⟨schema, accepted⟩ := (parse_eq_ok_iff given).mp parsed
  rcases splitUrn_cases (text.toList.takeWhile (· != '[')) with uncut | ⟨urn, dotted, cut, _⟩
  · rw [uncut, List.takeWhile_append_dropWhile] at accepted
    intro member
    rcases allowed_ahead accepted ':' member with name | point
    · simp [isNameChar] at name
    · cases point
  · rw [cut, unqualified] at schema
    cases schema

/-- **A URN in front of a text only gives the path its schema.** Behind the URN an accepted text
without one is the same segments, with the same filters. A text that is refused, with no colon ahead
of any filter, is refused for the same reason, further behind by the size of the URN and its colon. -/
theorem parse_qualified (starts : StartsUrn urn.toList) (noBracket : '[' ∉ urn.toList)
    (given : text ≠ "") :
    (∀ path, parse text = .ok path → path.schema = none →
      parse (urn ++ ":" ++ text) = .ok ⟨some urn, path.segments⟩) ∧
    (':' ∉ text.toList.takeWhile (· != '[') → ∀ error, parse text = .error error →
      parse (urn ++ ":" ++ text) = .error
        ⟨error.kind, urn ++ ":" ++ text, error.offset + urn.utf8ByteSize + 1⟩) := by
  constructor
  · intro path parsed unqualified
    have noColon := noColon_of_parse given parsed unqualified
    rw [parse_unqualified given noColon] at parsed
    rw [parse_behind starts noBracket noColon]
    cases read : takeSegments false text.toList with
    | error fault =>
      rw [read] at parsed
      cases parsed
    | ok segments =>
      rw [read] at parsed
      cases parsed
      rfl
  · intro noColon error refused
    rw [parse_unqualified given noColon] at refused
    rw [parse_behind starts noBracket noColon]
    cases read : takeSegments false text.toList with
    | ok segments =>
      rw [read] at refused
      cases refused
    | error fault =>
      rw [read] at refused
      cases refused
      have size : (urn ++ ":").utf8ByteSize = urn.utf8ByteSize + 1 := by
        rw [String.utf8ByteSize_append]
        rfl
      have behind := Fault.toError_append (urn ++ ":") (takeSegments_fault read).within
      rw [size, ← Nat.add_assoc] at behind
      exact congrArg Except.error behind

/-- The colons and brackets of a filter are passed over, and a fault behind it is found again. -/
theorem bracketedMail_qualified :
    parse ("URN:acme:2.0:User" ++ ":" ++ "emails[urn:x:type eq \"]:[\"].value") =
        .ok ⟨some "URN:acme:2.0:User", [⟨"emails", some (.compare ⟨some "urn:x", [⟨"type", none⟩]⟩
          .equal (.string "]:["))⟩, ⟨"value", none⟩]⟩ ∧
      parse ("URN:acme:2.0:User" ++ ":" ++ "emails[a eq \"é:\"]!") =
        .error ⟨.unexpectedChar '!', "URN:acme:2.0:User:emails[a eq \"é:\"]!", 36⟩ := by
  have starts : StartsUrn "URN:acme:2.0:User".toList := by decide
  have noBracket : '[' ∉ "URN:acme:2.0:User".toList := by decide
  have parsed : parse "emails[urn:x:type eq \"]:[\"].value" =
      .ok ⟨none, [⟨"emails", some (.compare ⟨some "urn:x", [⟨"type", none⟩]⟩ .equal
        (.string "]:["))⟩, ⟨"value", none⟩]⟩ := by decide +kernel
  have refused : parse "emails[a eq \"é:\"]!" =
      .error ⟨.unexpectedChar '!', "emails[a eq \"é:\"]!", 18⟩ := by decide +kernel
  exact ⟨(parse_qualified starts noBracket (by decide)).1 _ parsed rfl,
    (parse_qualified starts noBracket (by decide)).2 (by decide) _ refused⟩

end Path
end Scim
