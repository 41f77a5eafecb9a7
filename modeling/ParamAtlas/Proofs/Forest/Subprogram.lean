/-
# What decides a subprogram

A subprogram is read along its direct children, from the first one to the one that has no
next sibling.  Each of them that is a formal parameter gives one parameter, in order, and
no other child gives any or ends the reading (`subprogram_of_childList`):

| child | gives |
| --- | --- |
| a formal parameter, with a name or without | one parameter |
| with another tag, or with one that cannot be read | nothing |
| whatever stands below a child | nothing, for it is never looked at |

So between two stores in which the other children differ, in number, in their tags and in
all that stands below them (`Edited`), the subprogram is the same.  What it does depend on
are the entries that its parameters repeat, as far as origins are followed: these must say
the same in both stores, at the same offsets or at others (`SameOrigins`).
-/

import ParamAtlas.Forest.Memory
import ParamAtlas.Forest.Origin
import ParamAtlas.Proofs.Forest.SameOrigins
import ParamAtlas.Proofs.Forest.Steps

namespace ParamAtlas
namespace Forest

variable {ε δ : Type}

/-! ## Children by their links -/

/-- The entries from `e?` on, each the next sibling of the one before it, up to the one
that has none. -/
inductive SiblingChain (F : Forest ε) : Option ε → List ε → Prop
  | last : SiblingChain F none []
  | next {e : ε} {rest : List ε} :
      SiblingChain F (F.nextSibling e) rest → SiblingChain F (some e) (e :: rest)

/-- The direct children of an entry, by its links. -/
def ChildList (F : Forest ε) (d : ε) (cs : List ε) : Prop := F.SiblingChain (F.firstChild d) cs

/-- A chain of siblings is the list of them. -/
theorem siblingChain_iff {F : Forest ε} {e? : Option ε} {es : List ε} :
    F.SiblingChain e? es ↔ F.siblings? e? = es := by
  constructor
  · intro h
    induction h with
    | last => exact F.siblings?_none
    | next _ ih => rw [siblings?_some, ih]
  · rintro rfl
    cases e? with
    | none =>
      rw [siblings?_none]
      exact .last
    | some e =>
      induction e using F.linkInduction with
      | step e ih _ =>
        rw [siblings?_some]
        refine .next ?_
        cases hs : F.nextSibling e with
        | none =>
          rw [siblings?_none]
          exact .last
        | some s => exact ih s hs

/-- **The loop over children gives the list of them,** and there is no other. -/
theorem childList_iff {F : Forest ε} {d : ε} {cs : List ε} : F.ChildList d cs ↔ F.children d = cs :=
  siblingChain_iff

/-! ## Edits around parameters -/

/-- One list of children becomes another: the parameters stay, in order, and say the same,
while other children are removed and added.  One that gets another tag of that kind is
removed and added. -/
inductive Edited (F : Forest ε) (G : Forest δ) : List ε → List δ → Prop
  | nil : Edited F G [] []
  | kept {c : ε} {c' : δ} {cs : List ε} {cs' : List δ} (hF : F.tag c = some Tag.formalParameter)
      (hG : G.tag c' = some Tag.formalParameter) (hsame : F.SameOrigins G c c')
      (hrest : Edited F G cs cs') : Edited F G (c :: cs) (c' :: cs')
  | removed {c : ε} {cs : List ε} {cs' : List δ} (hF : F.tag c ≠ some Tag.formalParameter)
      (hrest : Edited F G cs cs') : Edited F G (c :: cs) cs'
  | added {c' : δ} {cs : List ε} {cs' : List δ} (hG : G.tag c' ≠ some Tag.formalParameter)
      (hrest : Edited F G cs cs') : Edited F G cs (c' :: cs')

/-- The parameters among children. -/
def parametersAmong (F : Forest ε) (cs : List ε) : List Parameter :=
  (cs.filter (F.tag · = some Tag.formalParameter)).map F.parameter

variable {F : Forest ε} {G : Forest δ}

/-- A formal parameter is one more parameter. -/
theorem parametersAmong_cons_of_eq {c : ε} (h : F.tag c = some Tag.formalParameter)
    (cs : List ε) : F.parametersAmong (c :: cs) = F.parameter c :: F.parametersAmong cs := by
  simp [parametersAmong, h]

/-- Anything else is none. -/
theorem parametersAmong_cons_of_ne {c : ε} (h : F.tag c ≠ some Tag.formalParameter)
    (cs : List ε) : F.parametersAmong (c :: cs) = F.parametersAmong cs := by
  simp [parametersAmong, h]

/-- **Edits around parameters** leave the parameters. -/
theorem Edited.parametersAmong_eq {cs : List ε} {cs' : List δ} (h : F.Edited G cs cs') :
    G.parametersAmong cs' = F.parametersAmong cs := by
  induction h with
  | nil => rfl
  | kept hF hG hsame _ ih =>
    rw [parametersAmong_cons_of_eq hF, parametersAmong_cons_of_eq hG, hsame.parameter_eq, ih]
  | removed hF _ ih => rw [parametersAmong_cons_of_ne hF, ih]
  | added hG _ ih => rw [parametersAmong_cons_of_ne hG, ih]

/-- A subprogram has its entry address, or 0, and the parameters among its children. -/
theorem subprogram_eq (F : Forest ε) (d : ε) :
    F.subprogram d = ⟨(F.address d .lowPc).getD 0, F.parametersAmong (F.children d)⟩ := by
  rw [subprogram, parameterEntries, parametersAmong]
  congr 3
  funext c
  exact Bool.eq_iff_iff.2 (by simp [hasTag])

/-- **What decides a subprogram.**  Its direct children make up a list, as their links have
it, and its parameters are those of the formal parameters in that list, in order; its
address is its own, or 0.  In another store it is the same subprogram, with the same
address, if other children were removed, added or given other tags, whatever stands below
children, as long as the formal parameters and their chains of origins say the same. -/
theorem subprogram_of_childList (F : Forest ε) (d : ε) :
    ∃ cs, F.ChildList d cs ∧
      F.subprogram d = ⟨(F.address d .lowPc).getD 0,
        (cs.filter (F.tag · = some Tag.formalParameter)).map F.parameter⟩ ∧
      ∀ {δ : Type} (G : Forest δ) (d' : δ) (cs' : List δ), G.ChildList d' cs' →
        F.Edited G cs cs' → G.address d' .lowPc = F.address d .lowPc →
        G.subprogram d' = F.subprogram d := by
  refine ⟨F.children d, childList_iff.2 rfl, F.subprogram_eq d, ?_⟩
  intro δ G d' cs' hchildren hedited haddress
  rw [subprogram_eq, subprogram_eq, childList_iff.1 hchildren, haddress,
    hedited.parametersAmong_eq]

/-! ### Children that come and go -/

/-- A subprogram with the parameters `a` and, from its origin 6, `b`.  Between them stands
entry 3, with a formal parameter below it. -/
def surrounded : MemoryForest where
  entries := #[
    ⟨none, some Tag.compileUnit, []⟩,
    ⟨some 0, some Tag.subprogram, [(.lowPc, .address 0x10)]⟩,
    ⟨some 1, some Tag.formalParameter, [(.name, .text "a")]⟩,
    ⟨some 1, some 0x34, []⟩,
    ⟨some 3, some Tag.formalParameter, [(.name, .text "x")]⟩,
    ⟨some 1, some Tag.formalParameter, [(.abstractOrigin, .reference ⟨6⟩)]⟩,
    ⟨some 0, some Tag.formalParameter, [(.name, .text "b")]⟩]
  units := #[]

/-- The same without entry 3 among the children, but with entry 7, which has no readable
tag and a formal parameter of its own. -/
def rearranged : MemoryForest where
  entries := #[
    ⟨none, some Tag.compileUnit, []⟩,
    ⟨some 0, some Tag.subprogram, [(.lowPc, .address 0x10)]⟩,
    ⟨some 1, some Tag.formalParameter, [(.name, .text "a")]⟩,
    ⟨some 0, some 0x34, []⟩,
    ⟨some 3, some Tag.subprogram, []⟩,
    ⟨some 1, some Tag.formalParameter, [(.abstractOrigin, .reference ⟨6⟩)]⟩,
    ⟨some 0, some Tag.formalParameter, [(.name, .text "b")]⟩,
    ⟨some 1, none, []⟩,
    ⟨some 7, some Tag.formalParameter, [(.name, .text "y")]⟩]
  units := #[]

/-- The subprogram has a parameter, something else and another parameter. -/
theorem childList_surrounded : surrounded.forest.ChildList 1 [2, 3, 5] :=
  childList_iff.2 (by decide +kernel)

/-- After the edit it has both parameters, and something else behind them. -/
theorem childList_rearranged : rearranged.forest.ChildList 1 [2, 5, 7] :=
  childList_iff.2 (by decide +kernel)

/-- The edit leaves the parameters, and all that they refer to. -/
theorem edited_rearranged : surrounded.forest.Edited rearranged.forest [2, 3, 5] [2, 5, 7] := by
  have hown : surrounded.forest.SameOrigins rearranged.forest 2 2 :=
    ⟨rfl, rfl, Eq, biUnique_eq, rfl, .last maxOrigins⟩
  have horigin : surrounded.forest.AgreeFrom rearranged.forest Eq maxOrigins (some ⟨6⟩)
      (some ⟨6⟩) := .origin rfl rfl rfl rfl rfl (.last 7)
  refine .kept rfl rfl hown (.removed (by decide) (.kept rfl rfl ?_ (.added (by decide) .nil)))
  exact ⟨rfl, rfl, Eq, biUnique_eq, rfl, horigin⟩

/-- The subprogram is the same before and after the edit. -/
theorem subprogram_of_childList_rearranged :
    surrounded.forest.ChildList 1 [2, 3, 5] ∧ rearranged.forest.ChildList 1 [2, 5, 7] ∧
      surrounded.forest.Edited rearranged.forest [2, 3, 5] [2, 5, 7] ∧
      rearranged.forest.address 1 .lowPc = surrounded.forest.address 1 .lowPc ∧
      rearranged.forest.subprogram 1 = surrounded.forest.subprogram 1 ∧
      surrounded.forest.subprogram 1 = ⟨0x10, [⟨"a", false⟩, ⟨"b", false⟩]⟩ := by
  obtain ⟨cs, hcs, hread, hframe⟩ := subprogram_of_childList surrounded.forest 1
  obtain rfl : [2, 3, 5] = cs := (childList_iff.1 childList_surrounded).symm.trans
    (childList_iff.1 hcs)
  have hsame := hframe rearranged.forest 1 _ childList_rearranged edited_rearranged rfl
  exact ⟨hcs, childList_rearranged, edited_rearranged, rfl, hsame, hread.trans (by decide +kernel)⟩

end Forest
end ParamAtlas
