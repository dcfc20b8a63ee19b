import RpcBindings.Binding.Context
import RpcBindings.Schema.Decode

/-!
# Categories of faults

A fault in its own words belongs to a category if it is marked so, or if its words are those of the category. The words
of faults about types begin in ways in which no category begins, so each of them belongs to the one category it is marked
with, whatever contexts and hints are put around it.
-/

namespace RpcBindings

/-- A fault belongs to one category and to no other. -/
def Fault.Only (category : Category) (f : Fault) : Prop := ∀ c, f.is c = true ↔ c = category

namespace Fault

theorem only_within {category : Category} {context : Text} {f : Fault} (h : f.Only category) :
    (within context f).Only category := h

theorem only_hinted {category : Category} {hint : Text} {f : Fault} (h : f.Only category) :
    (hinted hint f).Only category := h

theorem is_wrap (context : Text) (f : Fault) (c : Category) : (wrap context f).is c = f.is c := by
  unfold wrap
  split <;> rfl

theorem is_plain {lead : Text} (h : ∀ c : Category, ¬ lead <+: c.text) (rest : Text) (c : Category) :
    (plain (lead ++ rest)).is c = false := by
  apply beq_false_of_ne
  intro heq
  exact h c ⟨rest, heq⟩

theorem only_marked {f : Fault} (category : Category) (h : ∀ c, f.is c = false) : (marked category f).Only category := by
  intro c
  simp only [Fault.is, h, Bool.or_false, beq_iff_eq]
  exact eq_comm

theorem only_wrap {category : Category} {f : Fault} (context : Text) (h : f.Only category) :
    (wrap context f).Only category := by
  intro c
  rw [is_wrap]
  exact h c

theorem only_ofIo {f : Fault} (context : Text) (h : ∀ c, f.is c = false) : (ofIo context f).Only .io := by
  apply only_marked
  intro c
  rw [is_wrap, h]

theorem only_ofParse {lead : Text} (h : ∀ c : Category, ¬ lead <+: c.text) (rest : Text) :
    (ofParse (lead ++ rest)).Only .parse := only_marked .parse (is_plain h rest)

theorem only_ofMalformedType {lead rest : Text} (h : ∀ c : Category, ¬ lead <+: c.text) :
    (ofMalformedType (lead ++ rest)).Only .malformedType := only_marked .malformedType (is_plain h rest)

theorem only_ofMalformedType_words {words : Text} (h : ∀ c : Category, ¬ words <+: c.text) :
    (ofMalformedType words).Only .malformedType := by
  have hwords : (ofMalformedType (words ++ [])).Only .malformedType := only_ofMalformedType h
  rwa [List.append_nil] at hwords

end Fault

theorem Code.not_prefix_category (code : Code) (c : Category) : ¬ code.text <+: c.text := by
  cases code <;> cases c <;> decide

namespace TypeFault

theorem only_fault (f : TypeFault) : f.fault.Only .malformedType := by
  induction f with
  | missing => exact Fault.only_ofMalformedType_words fun c => by cases c <;> decide
  | unknownPrimitive code => exact Fault.only_ofMalformedType fun c => by cases c <;> decide
  | unknownMessage code => exact Fault.only_ofMalformedType fun c => by cases c <;> decide
  | notSingle shape count =>
    rw [fault, List.append_assoc]
    exact Fault.only_ofMalformedType shape.code.not_prefix_category
  | notPair count => exact Fault.only_ofMalformedType fun c => by cases c <;> decide
  | noName referent => exact Fault.only_ofMalformedType referent.code.not_prefix_category
  | noService referent name =>
    rw [fault, List.append_assoc, List.append_assoc]
    exact Fault.only_ofMalformedType referent.code.not_prefix_category
  | inElement shape cause ih => exact Fault.only_within ih
  | inPlace index cause ih => exact Fault.only_within ih
  | inKey cause ih => exact Fault.only_within ih
  | inValue cause ih => exact Fault.only_within ih

end TypeFault

namespace NodeFault

theorem only_fault (f : NodeFault) : f.fault.Only .malformedType := by
  induction f with
  | noCode => exact Fault.only_ofMalformedType_words fun c => by cases c <;> decide
  | unknownCode spelling =>
    exact Fault.only_hinted (Fault.only_ofMalformedType fun c => by cases c <;> decide)
  | noService code => exact Fault.only_ofMalformedType code.not_prefix_category
  | noName code => exact Fault.only_ofMalformedType code.not_prefix_category
  | noTypes code => exact Fault.only_ofMalformedType code.not_prefix_category
  | nullElement code index =>
    rw [fault, List.append_assoc, List.append_assoc]
    exact Fault.only_ofMalformedType code.not_prefix_category
  | element code index cause ih => exact Fault.only_within ih

end NodeFault

namespace Binding

theorem SignatureFault.only_fault (f : SignatureFault) : f.fault.Only .malformedType := by
  cases f with
  | parameter name cause => exact Fault.only_within cause.only_fault
  | result cause => exact Fault.only_within cause.only_fault

theorem PartitionFault.only_fault (f : PartitionFault) : f.fault.Only .malformedType := by
  cases f with
  | emptyMethod procedure cls =>
    simp only [fault, List.append_assoc]
    exact Fault.only_hinted (Fault.only_ofMalformedType fun c => by cases c <;> decide)
  | collision first second function =>
    simp only [fault, List.append_assoc]
    exact Fault.only_hinted (Fault.only_ofMalformedType fun c => by cases c <;> decide)
  | signature procedure cause => exact Fault.only_within cause.only_fault

theorem EnumFault.only_fault (f : EnumFault) : f.fault.Only .malformedEnum :=
  Fault.only_hinted (Fault.only_marked .malformedEnum fun _ => rfl)

end Binding

end RpcBindings
