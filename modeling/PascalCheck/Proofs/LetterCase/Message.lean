import PascalCheck.Proofs.LetterCase.Summary

/-! # Messages and the case of names

A message about names in lower case is the message about the names themselves, up to letter case. -/
namespace PascalCheck

theorem Text.toString_string (text : String) : toString text = text := rfl

/-- A token is described by its kind, and by its text up to letter case. -/
theorem Token.toLower_describe_foldName (t : Token) :
    t.foldName.describe.toLower = t.describe.toLower := by
  unfold describe
  rw [kind_foldName]
  split
  · rfl
  · split <;> simp only [Text.toString_string, Text.toLower_append, toLower_text_foldName]

/-- So the message of a fault is the same up to letter case. -/
theorem GrammarFault.toLower_message_foldName (fault : GrammarFault) :
    fault.foldName.message.toLower = fault.message.toLower := by
  obtain ⟨demand, found⟩ := fault
  cases demand <;>
    simp only [foldName, message, Text.toString_string, Text.toLower_append,
      found.toLower_describe_foldName]

namespace Finding

/-- **The message of a finding is the same up to letter case**, the names of the symbols it lists
included. -/
theorem toLower_message_foldNames (finding : Finding) :
    finding.foldNames.message.toLower = finding.message.toLower := by
  have hsite : site ∘ Symbol.foldName = site := rfl
  have htypeSite : typeSite ∘ Symbol.foldName = typeSite := rfl
  unfold message foldNames
  cases finding <;>
    simp only [Text.toString_string, Text.toLower_append, Text.toLower_toLower, List.map_map,
      hsite, htypeSite, Symbol.foldName]

/-- How grave a finding is does not depend on names. -/
@[simp] theorem severity_foldNames (finding : Finding) :
    finding.foldNames.severity = finding.severity := by
  cases finding <;> rfl

end Finding
end PascalCheck
