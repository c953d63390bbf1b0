import Scim.Proofs.Path.Soundness

/-! Printing and parsing are inverse to each other on paths and on filters. -/
namespace Scim

/-- The accepted texts and the well-formed trees correspond: a tree is well-formed just if some
text is accepted for it, and then its own text is. -/
structure RoundTrips {α ε : Type} (parse : String → Except ε α) (render : α → String)
    (WellFormed : α → Prop) : Prop where
  accepted : ∀ value, WellFormed value ↔ ∃ text, parse text = .ok value
  inverse : ∀ value, WellFormed value → parse (render value) = .ok value
  stable : ∀ text value, parse text = .ok value → parse (render value) = .ok value

/-- A parser that accepts only well-formed trees and reads their texts back corresponds to the
printer. -/
theorem RoundTrips.of_sound {α ε : Type} {parse : String → Except ε α} {render : α → String}
    {WellFormed : α → Prop} (sound : ∀ {text value}, parse text = .ok value → WellFormed value)
    (complete : ∀ {value}, WellFormed value → parse (render value) = .ok value) :
    RoundTrips parse render WellFormed where
  accepted value :=
    ⟨fun formed => ⟨render value, complete formed⟩, fun ⟨_, parsed⟩ => sound parsed⟩
  inverse _ formed := complete formed
  stable _ _ parsed := complete (sound parsed)

/-- Paths and filters survive being printed and parsed, and the trees that can be parsed are the
well-formed ones. -/
theorem paths_and_filters_roundTrip :
    RoundTrips Path.parse Path.render Path.WellFormed ∧
      RoundTrips Filter.parse Filter.render Filter.WellFormed :=
  ⟨.of_sound Path.wellFormed_of_parse Path.parse_render_of_wellFormed,
    .of_sound Filter.wellFormed_of_parse Filter.parse_render_of_wellFormed⟩

end Scim
