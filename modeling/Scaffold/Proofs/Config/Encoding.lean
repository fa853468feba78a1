import Scaffold.Config
import Scaffold.Proofs.Bindings
import Scaffold.Proofs.Json.Printed

namespace Scaffold.Config

open Json (Value Draft Content)

lemma readText_ofValue (place s : String) : readText place (Draft.ofValue (.string s)) = .ok s :=
  rfl

lemma readMembers_ofMembers {α : Type} {write : α → Value}
    {member : Bindings α → Content → Draft → Except ConfigFault (Bindings α)}
    (h : ∀ b k a, member b (.ok k) (Draft.ofValue (write a)) = .ok (b.insert k a))
    (es : List (String × α)) (base : Bindings α) :
    readMembers member base (Draft.ofMembers (es.map fun e => (e.1, write e.2))) =
      .ok (base.insertAll es) := by
  induction es generalizing base with
  | nil => rfl
  | cons e es ih =>
    rw [List.map_cons, Draft.ofMembers, readMembers, h]
    exact ih (base.insert e.1 e.2)

lemma readDictionary_ofValue {α : Type} (place : String)
    {read : String → Draft → Except ConfigFault α} {write : α → Value}
    (h : ∀ p a, read p (Draft.ofValue (write a)) = .ok a) (b : Bindings α) :
    readDictionary place read (Draft.ofValue (.object (b.entries.map fun e => (e.1, write e.2)))) =
      .ok b := by
  have ho : (∅ : Bindings α).insertAll b.entries = b := Bindings.ofList_entries b
  rw [Draft.ofValue, readDictionary, readMembers_ofMembers, ho]
  intro base key a
  simp only [readContent, Except.mapError, h, Except.map]

lemma readAlias_ofValue (place : String) (a : Alias) :
    readAlias place (Draft.ofValue (aliasValue a)) = .ok a := by
  have hv := readDictionary_ofValue (place ++ ".vars") readText_ofValue a.vars
  simp only [bindingsValue, aliasValue, Draft.ofValue, Draft.ofMembers, readAlias, readMembers,
    readText, readContent, Except.mapError, Except.map] at hv ⊢
  rw [hv]

lemma readConfig_ofValue (c : Config) : readConfig (Draft.ofValue c.toValue) = .ok c := by
  have hv := readDictionary_ofValue "$.vars" readText_ofValue c.vars
  have ha := readDictionary_ofValue "$.aliases" readAlias_ofValue c.aliases
  simp only [toValue, bindingsValue, Draft.ofValue, Draft.ofMembers, readConfig, readMembers,
    Except.map] at hv ha ⊢
  rw [hv]
  simp only
  rw [ha]

lemma dictionary_numberless {α : Type} {write : α → Value}
    (h : ∀ a, (write a).isNumberless = true) (es : List (String × α)) :
    (Value.object (es.map fun e => (e.1, write e.2))).isNumberless = true := by
  induction es with
  | nil => rfl
  | cons e es ih => exact Bool.and_eq_true_iff.2 ⟨h e.2, ih⟩

lemma toValue_numberless (c : Config) : c.toValue.isNumberless = true := by
  have hb (b : Bindings String) : (bindingsValue b).isNumberless = true :=
    dictionary_numberless (fun _ => rfl) b.entries
  have ha (a : Alias) : (aliasValue a).isNumberless = true := by
    simpa [aliasValue, Value.isNumberless, Json.membersNumberless] using hb a.vars
  simpa [toValue, Value.isNumberless, Json.membersNumberless] using
    ⟨hb c.vars, dictionary_numberless ha c.aliases.entries⟩

theorem decode_encode (c : Config) : decode c.encode = .ok c := by
  rw [decode, encode, Json.read_indented (toValue_numberless c)]
  simp only [readConfig_ofValue, if_true]

end Scaffold.Config
