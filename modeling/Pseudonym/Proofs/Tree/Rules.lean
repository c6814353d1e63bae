import Pseudonym.Proofs.Tree.Preorder
import Pseudonym.Tree.Rules

namespace Pseudonym.Rules

open Text (Bytes)
open Traversal

variable {source : Bytes} {n : ParseNode}

theorem require_eq_ok_iff {ok : Bool} {v : Violation} : require n ok v = .ok () ↔ ok = true := by
  cases ok with
  | false => exact ⟨nofun, nofun⟩
  | true => exact ⟨fun _ => rfl, fun _ => rfl⟩

theorem checkStrict_eq_ok_iff :
    checkStrict source n = .ok () ↔ n.type ≠ "with_statement" ∧
      (n.children.isEmpty = true →
        (n.type ∈ bindingTypes → ∃ text, textOf source n = .ok text ∧ text ∉ reservedWords) ∧
        (n.type = "number" → ∃ text, textOf source n = .ok text ∧ isLegacyOctal text = false)) := by
  rw [checkStrict, seq_eq_ok_iff, when_eq_ok_iff]
  simp only [when_bind_seq_eq_ok_iff]
  rw [when_eq_ok_iff, bind_eq_ok_iff]
  simp [require_eq_ok_iff]

theorem checkNode_eq_ok_iff {profile : Profile} {c : Context} :
    checkNode source profile c n = .ok () ↔ n.type ≠ "ERROR" ∧ n.isMissing = false ∧
      (profile.tags = true ∨ isTagType n.type = false) ∧
      (profile.sourceType = .module ∨ n.type ∉ moduleOnlyTypes) ∧
      (profile.sourceType = .module → checkStrict source n = .ok ()) ∧ checkJump c n = .ok () ∧
      (n.type ∈ blockTypes → checkDeclarations source n = .ok ()) := by
  rw [checkNode]
  simp only [when_seq_eq_ok_iff, seq_eq_ok_iff, when_eq_ok_iff, require_eq_ok_iff]
  simp

theorem checkJump_eq_ok_iff {c : Context} :
    checkJump c n = .ok () ↔ (n.type ≠ "return_statement" ∨ c.inFunction = true) ∧
      jumpAllowed c n = true := by
  rw [checkJump, seq_eq_ok_iff, require_eq_ok_iff, require_eq_ok_iff]
  simp

/-- Two declarations of one name that exclude each other. -/
def Clash (source : Bytes) (d e : Declared) : Prop :=
  (d.isLexical = true ∨ e.isLexical = true) ∧
    ∃ name, textOf source d.node = .ok name ∧ textOf source e.node = .ok name

/-- A declaration that names seen before do not exclude. -/
def Free (source : Bytes) (lexical hoisted : List String) (d : Declared) : Prop :=
  ∃ name, textOf source d.node = .ok name ∧ name ∉ lexical ∧ (d.isLexical = false ∨ name ∉ hoisted)

theorem free_cons_iff {lexical hoisted : List String} {d e : Declared} {name : String}
    (hname : textOf source d.node = .ok name) :
    Free source (if d.isLexical then name :: lexical else lexical)
        (if d.isLexical then hoisted else name :: hoisted) e ↔
      Free source lexical hoisted e ∧ ¬ Clash source d e := by
  unfold Free Clash
  cases textOf source e.node with
  | error fault => simp
  | ok other =>
      cases d.isLexical <;> cases e.isLexical <;> simp [hname, eq_comm (a := other)] <;> tauto

theorem checkNames_eq_ok_iff {lexical hoisted : List String} {ds : List Declared} :
    checkNames source lexical hoisted ds = .ok () ↔
      (∀ d ∈ ds, Free source lexical hoisted d) ∧ ds.Pairwise fun d e => ¬ Clash source d e := by
  induction ds generalizing lexical hoisted with
  | nil => simp [checkNames]
  | cons d ds ih =>
      have hrest : ∀ name, (if d.isLexical = true then checkNames source (name :: lexical) hoisted ds
          else checkNames source lexical (name :: hoisted) ds) =
            checkNames source (if d.isLexical then name :: lexical else lexical)
              (if d.isLexical then hoisted else name :: hoisted) ds := by
        intro name
        split <;> rfl
      rw [checkNames, bind_eq_ok_iff, List.forall_mem_cons, List.pairwise_cons]
      simp only [seq_eq_ok_iff, require_eq_ok_iff, hrest, ih]
      -- What has been seen with `d` excludes just what clashes with `d`.
      constructor
      · rintro ⟨name, hname, hfree, hall, hpairwise⟩
        refine ⟨⟨⟨name, hname, ?_⟩, fun e he => ((free_cons_iff hname).mp (hall e he)).1⟩,
          fun e he => ((free_cons_iff hname).mp (hall e he)).2, hpairwise⟩
        simpa using hfree
      · rintro ⟨⟨⟨name, hname, hfree⟩, hall⟩, hclash, hpairwise⟩
        refine ⟨name, hname, ?_,
          fun e he => (free_cons_iff hname).mpr ⟨hall e he, hclash e he⟩, hpairwise⟩
        simpa using hfree

theorem checkDeclarations_eq_ok_iff {block : ParseNode} :
    checkDeclarations source block = .ok () ↔
      (∀ d ∈ declaredNames block, ∃ name, textOf source d.node = .ok name) ∧
      (declaredNames block).Pairwise fun d e => ¬ Clash source d e := by
  rw [checkDeclarations, checkNames_eq_ok_iff]
  simp [Free]

theorem isSimpleName_of_mem_declaredNames {block : ParseNode} {d : Declared}
    (h : d ∈ declaredNames block) : isSimpleName d.node = true := by
  obtain ⟨statement, -, hd⟩ := List.mem_flatMap.mp h
  rw [declaredBy] at hd
  split at hd
  · cases hd
  · obtain ⟨node, hnode, rfl⟩ := List.mem_map.mp hd
    exact (List.mem_filter.mp hnode).2

theorem jumpAllowed_eq {a b : ParseNode} (h : a.SameShape b) (c : Context) :
    jumpAllowed c a = jumpAllowed c b := by
  have hany : (a.children.any fun child => child.type = "statement_identifier") =
      b.children.any fun child => child.type = "statement_identifier" := by
    have hchildren := h.children
    generalize a.children = as, b.children = bs at hchildren
    induction hchildren with
    | nil => rfl
    | cons hcd _ ih => rw [List.any_cons, List.any_cons, ih, hcd.type]
  rw [jumpAllowed, jumpAllowed, hany, h.type]

/-- A relation between trees of one shape that passes to their children. -/
structure Hereditary (S : ParseNode → ParseNode → Prop) : Prop where
  shape : ∀ a b, S a b → a.SameShape b
  children : ∀ a b, S a b → List.Forall₂ S a.children b.children

namespace Hereditary

variable {S : ParseNode → ParseNode → Prop} {a b : ParseNode}

theorem namedChildren (hS : Hereditary S) (h : S a b) :
    List.Forall₂ S a.namedChildren b.namedChildren :=
  List.rel_filter (fun c d hcd => Bool.eq_iff_iff.mp (hS.shape c d hcd).isNamed)
    (hS.children a b h)

theorem childByField? (hS : Hereditary S) (h : S a b) (name : String) :
    Option.Rel S (a.childByField? name) (b.childByField? name) := by
  have hchildren := hS.children a b h
  rw [ParseNode.childByField?, ParseNode.childByField?]
  generalize a.children = as, b.children = bs at hchildren
  induction hchildren with
  | nil => exact .none
  | @cons c d _ _ hcd _ ih =>
      rw [List.find?_cons, List.find?_cons, (hS.shape c d hcd).field]
      cases d.field == some name with
      | true => exact .some hcd
      | false => exact ih

theorem boundNames (hS : Hereditary S) (h : S a b) :
    List.Forall₂ S (boundNames a) (boundNames b) := by
  have htype : ∀ c d, S c d → c.type = d.type := fun c d hcd => (hS.shape c d hcd).type
  unfold Rules.boundNames
  refine List.rel_filter (fun c d hcd => ?_) ?_
  · simp only [isSimpleName, htype c d hcd]
  · rw [htype a b h]
    split
    · have hdeclarators := List.rel_filter (p := fun c => c.type = "variable_declarator")
        (q := fun d => d.type = "variable_declarator")
        (fun c d hcd => by simp only [htype c d hcd]) (hS.namedChildren h)
      exact List.rel_filterMap (R := S) (fun _ _ hcd => hS.childByField? hcd "name") hdeclarators
    · split
      · have hname := hS.childByField? h "name"
        generalize a.childByField? "name" = x, b.childByField? "name" = y at hname
        cases hname with
        | none => exact .nil
        | some hcd => exact .cons hcd .nil
      · exact .nil

theorem declaration? (hS : Hereditary S) (h : S a b) :
    Option.Rel S (declaration? a) (declaration? b) := by
  rw [Rules.declaration?, Rules.declaration?, (hS.shape a b h).type]
  split
  · exact hS.childByField? h "declaration"
  · exact .some h

theorem declaredBy (hS : Hereditary S) (h : S a b) :
    List.Forall₂ (fun d e => S d.node e.node ∧ d.isLexical = e.isLexical) (declaredBy a)
      (declaredBy b) := by
  have hdeclaration := hS.declaration? h
  rw [Rules.declaredBy, Rules.declaredBy]
  generalize Rules.declaration? a = x, Rules.declaration? b = y at hdeclaration
  cases hdeclaration with
  | none => exact .nil
  | @some c d hcd =>
      simp only
      rw [List.forall₂_map_left_iff, List.forall₂_map_right_iff, (hS.shape c d hcd).type]
      exact (hS.boundNames hcd).imp fun _ _ h => ⟨h, rfl⟩

theorem declaredNames (hS : Hereditary S) (h : S a b) :
    List.Forall₂ (fun d e => S d.node e.node ∧ d.isLexical = e.isLexical) (declaredNames a)
      (declaredNames b) :=
  List.rel_flatMap (hS.namedChildren h) fun _ _ hcd => hS.declaredBy hcd

end Hereditary

end Pseudonym.Rules
