/-!
# Joined text

Pieces of text one after the other with a separator between each two.
-/

namespace GraphMapper.Text

/-- The items with the separator between each two. -/
def joined (separator : String) : List String → String
  | [] => ""
  | [item] => item
  | item :: rest => item ++ separator ++ joined separator rest

/-- Two joined texts are one. -/
theorem joined_append {separator : String} {items others : List String} (hitems : items ≠ [])
    (hothers : others ≠ []) :
    joined separator (items ++ others) =
      joined separator items ++ separator ++ joined separator others := by
  induction items with
  | nil => exact absurd rfl hitems
  | cons item rest ih =>
    cases rest with
    | nil =>
      cases others with
      | nil => exact absurd rfl hothers
      | cons other others => rfl
    | cons next rest =>
      have hrest := ih (by simp)
      simp only [List.cons_append, joined] at hrest ⊢
      rw [hrest]
      simp only [String.append_assoc]

end GraphMapper.Text
