import FunctionApp.Handler.Marks
import FunctionApp.Handler.Param
import FunctionApp.Handler.Payload

/-!
# Programs with the same types

What is asked about a type is answered from the types of a program alone, whatever its documents
declare. Two programs with the same types therefore give the same answers, and with them the same
role, the same check and the same value for each parameter.
-/

namespace FunctionApp

namespace Program

variable (program : Program) {names : List String} {members : List TypeExpr}

theorem isStructuredWithin_of_effective {ty : TypeExpr}
    (h : TypeExpr.effective (.intersection members) = .ok ty) :
    program.isStructuredWithin names (.intersection members) =
      program.isStructuredWithin names ty := by
  rw [isStructuredWithin]
  split
  · next e =>
    rw [h] at e
    cases e
    rfl
  · next e =>
    rw [h] at e
    cases e

theorem isStructuredWithin_of_not_effective {ty : TypeExpr}
    (h : TypeExpr.effective (.intersection members) = .error ty) :
    program.isStructuredWithin names (.intersection members) = false := by
  rw [isStructuredWithin]
  split
  · next e =>
    rw [h] at e
    cases e
  · rfl

end Program

variable {p q : Program} (h : q.types = p.types)
include h

namespace Program

theorem definition?_congr : q.definition? = p.definition? := by
  funext name
  unfold definition?
  rw [h]

theorem namesFor_congr : q.namesFor = p.namesFor := by
  funext ty
  unfold namesFor
  rw [h]

theorem alias?_congr : q.alias? = p.alias? := by
  funext name
  unfold alias?
  rw [definition?_congr h]

theorem dataParts?_congr : q.dataParts? = p.dataParts? := by
  funext name
  unfold dataParts?
  rw [definition?_congr h]

/-! ## Questions that follow names -/

theorem resolveAliasWithin_congr (names : List String) (ty : TypeExpr) :
    q.resolveAliasWithin names ty = p.resolveAliasWithin names ty := by
  induction names, ty using resolveAliasWithin.induct q with
  | case1 names name mem ty hty ih =>
    rw [resolveAliasWithin, resolveAliasWithin, dif_pos mem, dif_pos mem, ← alias?_congr h, hty]
    exact ih
  | case2 names name mem none =>
    rw [resolveAliasWithin, resolveAliasWithin, dif_pos mem, dif_pos mem, ← alias?_congr h, none]
  | case3 names name mem => rw [resolveAliasWithin, resolveAliasWithin, dif_neg mem, dif_neg mem]
  | case4 names ty other =>
    rw [resolveAliasWithin, resolveAliasWithin]
    · exact other
    · exact other

theorem holdData_congr (fresh names : List String) :
    q.holdData fresh names = p.holdData fresh names := by
  induction fresh, names using holdData.induct q with
  | case1 fresh => rw [holdData, holdData]
  | case2 fresh name rest mem names parts ih =>
    rw [holdData, holdData, dif_pos mem, dif_pos mem, ← dataParts?_congr h, parts]
    exact ih
  | case3 fresh name rest mem none =>
    rw [holdData, holdData, dif_pos mem, dif_pos mem, ← dataParts?_congr h, none]
  | case4 fresh name rest mem ih =>
    rw [holdData, holdData, dif_neg mem, dif_neg mem]
    exact ih

theorem isStructuredWithin_congr (names : List String) (ty : TypeExpr) :
    q.isStructuredWithin names ty = p.isStructuredWithin names ty := by
  have definition := definition?_congr h
  induction names, ty using isStructuredWithin.induct q with
  | case7 names element ih => rw [isStructuredWithin, isStructuredWithin, ih]
  | case8 names members ty effective ih =>
    rw [isStructuredWithin_of_effective q effective, isStructuredWithin_of_effective p effective, ih]
  | case9 names members e none =>
    rw [isStructuredWithin_of_not_effective q none, isStructuredWithin_of_not_effective p none]
  | case10 names name mem r record =>
    rw [isStructuredWithin, isStructuredWithin, dif_pos mem, dif_pos mem, ← definition, record]
  | case11 names name mem ty aliased ih =>
    rw [isStructuredWithin, isStructuredWithin, dif_pos mem, dif_pos mem, ← definition, aliased]
    exact ih
  | case12 names name mem notRecord notAlias =>
    rw [isStructuredWithin, isStructuredWithin, dif_pos mem, dif_pos mem, ← definition]
    rcases hd : q.definition? name with _ | r | _ | ty
    · rfl
    · exact absurd hd (notRecord r)
    · rfl
    · exact absurd hd (notAlias ty)
  | case13 names name mem => rw [isStructuredWithin, isStructuredWithin, dif_neg mem, dif_neg mem]
  | case14 names ty =>
    rw [isStructuredWithin.eq_def, isStructuredWithin.eq_def]
    grind
  | _ => rw [isStructuredWithin, isStructuredWithin]

theorem resolveAlias_congr : q.resolveAlias = p.resolveAlias := by
  funext ty
  rw [resolveAlias, resolveAlias, namesFor_congr h, resolveAliasWithin_congr h]

theorem isAnydata_congr : q.isAnydata = p.isAnydata := by
  funext ty
  simp only [isAnydata, namesFor_congr h, holdData_congr h]

theorem isStructured_congr : q.isStructured = p.isStructured := by
  funext ty
  rw [isStructured, isStructured, namesFor_congr h, isStructuredWithin_congr h]

/-! ## Questions about what a type stands for -/

theorem recordType?_congr : q.recordType? = p.recordType? := by
  funext ty
  unfold recordType?
  rw [resolveAlias_congr h, definition?_congr h]

theorem isRecord_congr : q.isRecord = p.isRecord := by
  funext ty
  rw [isRecord, isRecord, recordType?_congr h]

theorem isRecordArray_congr : q.isRecordArray = p.isRecordArray := by
  funext ty
  unfold isRecordArray
  rw [resolveAlias_congr h, isRecord_congr h]

theorem isBasic_congr : q.isBasic = p.isBasic := by
  funext ty
  unfold isBasic
  rw [resolveAlias_congr h]

theorem valueBehind?_congr : q.valueBehind? = p.valueBehind? := by
  funext ty
  rw [valueBehind?, valueBehind?, resolveAlias_congr h]

end Program

open Program

/-! ## What is made of a parameter -/

theorem isBlobData_congr : isBlobData q = isBlobData p := by
  funext ty
  unfold isBlobData
  rw [resolveAlias_congr h]

theorem Listener.accepts_congr (l : Listener) : l.accepts q = l.accepts p := by
  funext ty
  unfold accepts
  rw [resolveAlias_congr h, isAnydata_congr h, isRecord_congr h, isBlobData_congr h]

namespace Role

theorem isHeaderValue_congr : isHeaderValue q = isHeaderValue p := by
  funext ty
  unfold isHeaderValue
  rw [valueBehind?_congr h, isBasic_congr h]

theorem headerRecord?_congr : headerRecord? q = headerRecord? p := by
  funext ty
  rw [headerRecord?, headerRecord?, recordType?_congr h]

theorem isDocumentData_congr : isDocumentData q = isDocumentData p := by
  funext ty
  rw [isDocumentData, isDocumentData, isRecord_congr h, isRecordArray_congr h]

theorem checkHeader_congr : checkHeader q = checkHeader p := by
  funext site
  unfold checkHeader
  rw [isHeaderValue_congr h, headerRecord?_congr h]

theorem check_congr (role : Role) : role.check q = role.check p := by
  funext site
  cases role with
  | path => rw [check, check, resolveAlias_congr h]
  | query => rw [check, check, valueBehind?_congr h, isBasic_congr h]
  | header => rw [check, check, checkHeader_congr h]
  | payload => rw [check, check, Listener.accepts_congr h]
  | documentInput => rw [check, check, valueBehind?_congr h, isDocumentData_congr h]
  | blobInput => rw [check, check, valueBehind?_congr h, isBlobData_congr h]
  | metadata => rw [check, check, resolveAlias_congr h]

theorem extraction_congr (role : Role) : role.extraction q = role.extraction p := by
  funext site
  cases role with
  | header => rw [extraction, extraction, headerRecord?_congr h]
  | _ => rfl

end Role

theorem Output.check_congr (o : Output) : o.check q = o.check p := by
  funext ty
  have accepts : o.acceptsValue q = o.acceptsValue p := by
    funext value
    unfold acceptsValue
    rw [isAnydata_congr h, resolveAlias_congr h, isRecord_congr h, isRecordArray_congr h,
      isBlobData_congr h]
  rw [check, check, accepts]

theorem assignRoles_congr (listener : Listener) (candidates : List Candidate) :
    assignRoles q listener candidates = assignRoles p listener candidates := by
  have shape : Shape.of q = Shape.of p := by
    funext ty
    rw [Shape.of, Shape.of, isStructured_congr h]
  have assign : RoleAssignment.assign q = RoleAssignment.assign p := by
    funext listener candidates a candidate index
    unfold RoleAssignment.assign
    rw [shape]
  rw [assignRoles, assignRoles, assign]

end FunctionApp
