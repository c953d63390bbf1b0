/-! Texts equal but for the case of ASCII letters: how names, keys, URNs and keywords are
matched. Letters outside ASCII keep their case. -/
namespace Scim

def folded (text : String) : List Char := text.toList.map Char.toLower

def Caseless (a b : String) : Prop := folded a = folded b

instance (a b : String) : Decidable (Caseless a b) :=
  inferInstanceAs (Decidable (folded a = folded b))

namespace Caseless

theorem refl (a : String) : Caseless a a := rfl
theorem symm {a b : String} (h : Caseless a b) : Caseless b a := Eq.symm h
theorem trans {a b c : String} (h : Caseless a b) (k : Caseless b c) : Caseless a c :=
  Eq.trans h k

theorem congr_right {a b : String} (same : Caseless a b) (c : String) :
    Caseless c a ↔ Caseless c b :=
  ⟨fun h => h.trans same, fun h => h.trans same.symm⟩

/-- Of items with distinct names each is found under its own. -/
theorem find?_of_mem {α : Type} (name : α → String) {items : List α} {item : α}
    (distinct : (items.map name).Pairwise fun a b => ¬ Caseless a b) (member : item ∈ items) :
    items.find? (fun other => decide (Caseless (name other) (name item))) = some item := by
  induction items with
  | nil => simp at member
  | cons first rest ih =>
    obtain ⟨apart, tail⟩ := List.pairwise_cons.mp distinct
    rcases List.mem_cons.mp member with rfl | later
    · simp [Caseless.refl]
    · have different : ¬ Caseless (name first) (name item) := apart _ (List.mem_map_of_mem later)
      simp [different, ih tail later]

end Caseless
end Scim
