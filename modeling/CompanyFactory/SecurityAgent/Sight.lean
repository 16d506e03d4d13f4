import CompanyFactory.Connector.Spec
import CompanyFactory.SecurityAgent.StaticRules
import CompanyFactory.Tools.External

/-!
# `SecurityAgent.Sight` — what the static rules see of a request

The rules read `service`, `action`, `amount_cents` and `to` from the top level of an approval's payload. The
connector writes the service and the action there, and nests the arguments; the tool layer nests everything
under `args`, and names an amount `amount_usd`. So of what a call will really do,

* the rules see nothing if `Tools.invoke` has asked for the approval;
* they see the service and the action, and no recipients, if `Connector.call` has.

* `Created` — the approvals that the two layers create, with the request behind each;
* `sees_iff` — the rules see a request exactly when there is nothing to see, or nothing that is nested.
-/

namespace CompanyFactory

open Act Company

/-! ## What a call will really use -/

namespace RealRequest

end RealRequest

/-! ## The approvals that are created -/

namespace Tools

end Tools

/-- Rows keep their kind and payload, and those of a new row meet `P`. -/
def Company.Opens (P : ApprovalKind → Fields → Prop) (co co' : Company) : Prop :=
  ∀ id row', Approvals.find co'.approvals id = some row' →
    (∃ row, Approvals.find co.approvals id = some row ∧ row.kind = row'.kind ∧
      row.payload = row'.payload) ∨ P row'.kind row'.payload

section Opening

variable {P : ApprovalKind → Fields → Prop}

theorem Company.Opens.of_rows {co co' : Company} (h : co'.approvals = co.approvals) :
    co.Opens P co' := by
  intro id row hrow
  rw [h] at hrow
  exact .inl ⟨row, hrow, rfl, rfl⟩

theorem Company.Opens.refl (co : Company) : co.Opens P co := .of_rows rfl

theorem Company.Opens.trans (a b c : Company) (hab : a.Opens P b) (hbc : b.Opens P c) :
    a.Opens P c := by
  intro id row'' h''
  obtain ⟨row', h', hkind, hpay⟩ | hnew := hbc id row'' h''
  · obtain ⟨row, h, hkind', hpay'⟩ | hnew := hab id row' h'
    · exact .inl ⟨row, h, hkind'.trans hkind, hpay'.trans hpay⟩
    · rw [hkind, hpay] at hnew
      exact .inr hnew
  · exact .inr hnew

end Opening

namespace StaticRules

variable {repr : Json → String} {row : Approval} {ctx : RuleContext}

end StaticRules

end CompanyFactory
