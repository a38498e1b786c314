import PasoFrontEnd.Tree.Outline

/-!
Outlines as listings of trees. A program is a tree with a node for itself, for each statement and
for each block; its outline lists the nodes from the root on, each behind the node that it belongs
to and indented by its depth. No tree is lost in such a list, as long as no text begins with a
blank.
-/

namespace PasoFrontEnd

namespace Outline

/-- A text, with trees one level below it. -/
inductive Tree where
  | node (text : String) (children : List Tree)

mutual

/-- The line for the root of a tree, and the lines below it. -/
def Tree.lines (depth : Nat) : Tree → List String
  | .node text children => line depth text :: listing (depth + 1) children

/-- The lines for trees that stand one below the other. -/
def listing (depth : Nat) : List Tree → List String
  | [] => []
  | t :: ts => t.lines depth ++ listing depth ts

end

/-- A text that its indentation can be told apart from. -/
def Starts (text : String) : Prop := ∃ c cs, text.toList = c :: cs ∧ c ≠ ' '

theorem Starts.append {text : String} (h : Starts text) (more : String) :
    Starts (text ++ more) := by
  obtain ⟨c, cs, hc, notBlank⟩ := h
  exact ⟨c, cs ++ more.toList, by rw [String.toList_append, hc, List.cons_append], notBlank⟩

mutual

/-- Every text in the tree can be told apart from its indentation. -/
def Tree.AllStart : Tree → Prop
  | .node text children => Starts text ∧ EachStarts children

def EachStarts : List Tree → Prop
  | [] => True
  | t :: ts => t.AllStart ∧ EachStarts ts

end

theorem toList_line (depth : Nat) (text : String) :
    (line depth text).toList = List.replicate (2 * depth) ' ' ++ text.toList := by
  rw [line, String.toList_append, String.toList_ofList]

/-- A line shows its depth and its text. -/
theorem line_inj {depth depth' : Nat} {text text' : String} (starts : Starts text)
    (starts' : Starts text') (h : line depth text = line depth' text') :
    depth = depth' ∧ text = text' := by
  have same := congrArg String.toList h
  rw [toList_line, toList_line] at same
  have blanks {depth : Nat} {text : String} (starts : Starts text) :
      (List.replicate (2 * depth) ' ' ++ text.toList).takeWhile (· = ' ') =
        List.replicate (2 * depth) ' ' := by
    obtain ⟨c, cs, hc, notBlank⟩ := starts
    rw [hc, List.takeWhile_append_of_pos (by simp),
      List.takeWhile_cons_of_neg (by simpa using notBlank),
      List.append_nil]
  have lengths := congrArg (fun cs => (cs.takeWhile (· = ' ')).length) same
  simp only [blanks starts, blanks starts', List.length_replicate] at lengths
  obtain rfl : depth = depth' := by omega
  exact ⟨rfl, String.toList_inj.1 (List.append_cancel_left same)⟩

/-- The lines go on, if at all, above the given depth. -/
def Above (depth : Nat) (lines : List String) : Prop :=
  ∀ first ∈ lines.head?, ∃ depth' < depth, ∃ text, Starts text ∧ first = line depth' text

theorem Above.listing {depth : Nat} {ts : List Tree} {rest : List String} (start : EachStarts ts)
    (above : Above depth rest) : Above (depth + 1) (listing depth ts ++ rest) := by
  intro first hfirst
  match ts, start with
  | [], _ =>
      obtain ⟨depth', less, text, starts, rfl⟩ := above first hfirst
      exact ⟨depth', Nat.lt_succ_of_lt less, text, starts, rfl⟩
  | .node text children :: ts, start =>
      cases hfirst
      exact ⟨depth, Nat.lt_succ_self _, text, start.1.1, rfl⟩

mutual

/-- A tree is read off its lines; what stands behind them begins at its depth or above. -/
theorem Tree.lines_inj {depth : Nat} {rest rest' : List String} : (t t' : Tree) → t.AllStart →
    t'.AllStart → Above (depth + 1) rest → Above (depth + 1) rest' →
    t.lines depth ++ rest = t'.lines depth ++ rest' → t = t' ∧ rest = rest'
  | .node text children, .node text' children', start, start', above, above', h => by
      obtain ⟨head, tail⟩ := List.cons.inj h
      obtain ⟨-, rfl⟩ := line_inj start.1 start'.1 head
      obtain ⟨rfl, rest⟩ := listing_inj children children' start.2 start'.2 above above' tail
      exact ⟨rfl, rest⟩

theorem listing_inj {depth : Nat} {rest rest' : List String} : (ts ts' : List Tree) →
    EachStarts ts → EachStarts ts' → Above depth rest → Above depth rest' →
    listing depth ts ++ rest = listing depth ts' ++ rest' → ts = ts' ∧ rest = rest'
  | [], [], _, _, _, _, h => ⟨rfl, h⟩
  | [], .node text children :: ts', _, start', above, _, h => by
      obtain ⟨depth', less, text', starts, same⟩ := above (line depth text) (congrArg List.head? h)
      exact absurd (line_inj start'.1.1 starts same).1 (Nat.ne_of_gt less)
  | .node text children :: ts, [], start, _, _, above, h => by
      obtain ⟨depth', less, text', starts, same⟩ :=
        above (line depth text) (congrArg List.head? h.symm)
      exact absurd (line_inj start.1.1 starts same).1 (Nat.ne_of_gt less)
  | t :: ts, t' :: ts', start, start', above, above', h => by
      simp only [listing, List.append_assoc] at h
      obtain ⟨rfl, siblings⟩ := t.lines_inj t' start.1 start'.1 (above.listing start.2)
        (above'.listing start'.2) h
      obtain ⟨rfl, rest⟩ := listing_inj ts ts' start.2 start'.2 above above' siblings
      exact ⟨rfl, rest⟩

end

/-- The text for a statement itself: its heading and the number of its line in the source. -/
def label (s : Stmt) : String := heading s ++ " @" ++ toString s.location.line

mutual

/-- A statement with its blocks below it, and the statements of a block below the block. -/
def tree : Stmt → Tree
  | s@(.branch _ body (some otherwise) _) =>
    .node (label s) [.node "then" (trees body), .node "else" (trees otherwise)]
  | s@(.branch _ body none _) => .node (label s) [.node "then" (trees body)]
  | s@(.loop _ body _) | s@(.doLoop body _ _) => .node (label s) [.node "body" (trees body)]
  | s => .node (label s) []

def trees : List Stmt → List Tree
  | [] => []
  | s :: rest => tree s :: trees rest

end

mutual

theorem ofStmt_eq_lines (depth : Nat) : (s : Stmt) → ofStmt depth s = (tree s).lines depth
  | .branch condition body (some otherwise) loc => by
      rw [ofStmt, tree, ofBlock_eq_listing _ body, ofBlock_eq_listing _ otherwise]
      simp [Tree.lines, listing, headingLine, label]
  | .branch condition body none loc => by
      rw [ofStmt, tree, ofBlock_eq_listing _ body]
      simp [Tree.lines, listing, headingLine, label]
  | .loop condition body loc => by
      rw [ofStmt, tree, ofBlock_eq_listing _ body]
      simp [Tree.lines, listing, headingLine, label]
  | .doLoop body condition loc => by
      rw [ofStmt, tree, ofBlock_eq_listing _ body]
      simp [Tree.lines, listing, headingLine, label]
  | .assignment _ _ _ | .declaration _ _ _ _ | .print _ _ => rfl

theorem ofBlock_eq_listing (depth : Nat) :
    (b : List Stmt) → ofBlock depth b = listing depth (trees b)
  | [] => rfl
  | s :: rest => by
      rw [ofBlock, trees, listing, ofStmt_eq_lines depth s, ofBlock_eq_listing depth rest]

end

end Outline

open Outline (label tree trees listing)

/-- The tree that the outline of a program lists. -/
def Program.tree (p : Program) : Outline.Tree :=
  .node ("Program (" ++ toString p.statements.length ++ " statements)") (trees p.statements)

theorem Program.outline_eq_lines (p : Program) : p.outline = p.tree.lines 0 := by
  rw [outline, Outline.ofBlock_eq_listing, Program.tree, Outline.Tree.lines, Outline.line]
  simp

/-- The blocks that belong to a statement itself. -/
def Stmt.blocks : Stmt → List Block
  | .branch _ body (some otherwise) _ => [body, otherwise]
  | .branch _ body none _ | .loop _ body _ | .doLoop body _ _ => [body]
  | .assignment _ _ _ | .declaration _ _ _ _ | .print _ _ => []

mutual

/-- A statement, and all statements in its blocks behind it. -/
def Stmt.preorder : Stmt → List Stmt
  | s@(.branch _ body (some otherwise) _) => s :: (Block.preorder body ++ Block.preorder otherwise)
  | s@(.branch _ body none _) | s@(.loop _ body _) | s@(.doLoop body _ _) =>
      s :: Block.preorder body
  | s => [s]

def Block.preorder : List Stmt → List Stmt
  | [] => []
  | s :: rest => s.preorder ++ Block.preorder rest

end

/-- The number of the statements together with that of their blocks. -/
def Outline.entries (ss : List Stmt) : Nat := ss.length + (ss.flatMap Stmt.blocks).length

theorem Outline.entries_cons (s : Stmt) (ss : List Stmt) :
    entries (s :: ss) = 1 + s.blocks.length + entries ss := by
  simp only [entries, List.length_cons, List.flatMap_cons, List.length_append]
  omega

theorem Outline.entries_append (ss ts : List Stmt) :
    entries (ss ++ ts) = entries ss + entries ts := by
  simp only [entries, List.length_append, List.flatMap_append]
  omega

open Outline (entries entries_cons entries_append)

mutual

theorem length_lines_tree (depth : Nat) :
    (s : Stmt) → ((tree s).lines depth).length = entries s.preorder
  | .branch condition body (some otherwise) loc => by
      have first := length_listing_trees (depth + 2) body
      have second := length_listing_trees (depth + 2) otherwise
      simp [tree, Outline.Tree.lines, listing, Stmt.preorder, entries_cons, entries_append,
        Stmt.blocks, first, second]
      omega
  | .branch condition body none loc | .loop condition body loc | .doLoop body condition loc => by
      have inner := length_listing_trees (depth + 2) body
      simp [tree, Outline.Tree.lines, listing, Stmt.preorder, entries_cons, Stmt.blocks, inner]
      omega
  | .assignment _ _ _ | .declaration _ _ _ _ | .print _ _ => rfl

theorem length_listing_trees (depth : Nat) :
    (b : List Stmt) → (listing depth (trees b)).length = entries (Block.preorder b)
  | [] => rfl
  | s :: rest => by
      rw [trees, listing, List.length_append, length_lines_tree depth s,
        length_listing_trees depth rest, Block.preorder, entries_append]

end

/-- One line for the program, one for each statement, and one for each block. -/
theorem Program.length_outline (p : Program) :
    p.outline.length = 1 + entries (Block.preorder p.statements) := by
  rw [outline_eq_lines, Program.tree, Outline.Tree.lines, List.length_cons, length_listing_trees,
    Nat.add_comm]

end PasoFrontEnd
