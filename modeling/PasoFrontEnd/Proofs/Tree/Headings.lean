import PasoFrontEnd.Proofs.Layout.Canonical
import PasoFrontEnd.Proofs.Tree.Edit
import PasoFrontEnd.Proofs.Tree.Listing
import PasoFrontEnd.Proofs.Tree.Rendering

/-!
Outlines read back. The text of a readable expression has one tree, the line for a statement has one
statement but for its blocks, and the lines for a program have one program. What an outline leaves
open are the columns of statements and the places in expressions.
-/

namespace PasoFrontEnd

open Edit (withoutPlaces)

theorem Piece.ofToken_inj {t u : Token.Kind × List Char} (h : ofToken t = ofToken u) : t = u := by
  have same := congrArg (Piece.token? true) h
  rw [token?_ofToken, token?_ofToken] at same
  exact Option.some.inj same

theorem Literal.sign_inj {v w : Literal} (h : v.Readable) (h' : w.Readable)
    (same : v.sign = w.sign) :
    v = w := by
  obtain ⟨kind, lexeme⟩ := Prod.mk.inj same
  cases v with
  | integer n =>
      cases w with
      | integer m =>
          have read := congrArg Decimal.readInt64? (String.toList_inj.1 lexeme)
          rw [Decimal.readInt64?_toString h, Decimal.readInt64?_toString h'] at read
          rw [Option.some.inj read]
      | boolean b => cases b <;> contradiction
      | decimal _ | text _ | null => contradiction
  | decimal _ => exact h.elim
  | text s =>
      cases w with
      | text t => rw [String.toList_inj.1 lexeme]
      | boolean b => cases b <;> contradiction
      | integer _ | decimal _ | null => contradiction
  | boolean b =>
      cases w with
      | boolean b' => cases b <;> cases b' <;> first | rfl | contradiction
      | integer _ | decimal _ | text _ | null => cases b <;> contradiction
  | null =>
      cases w with
      | null => rfl
      | boolean b => cases b <;> contradiction
      | integer _ | decimal _ | text _ => contradiction

namespace Expr

inductive Form where
  | literal
  | named
  | negation
  | operation

def form : Expr → Form
  | literal _ _ => .literal
  | named _ _ => .named
  | negation _ _ => .negation
  | operation _ _ _ _ => .operation

/-- The form of an expression that begins with these pieces. -/
def formOf : List Piece → Form
  | .lexeme .identifier _ :: _ => .named
  | .lexeme (.symbol .openParen) _ :: .lexeme (.symbol .minus) _ :: _ => .negation
  | .lexeme (.symbol .openParen) _ :: _ => .operation
  | _ => .literal

theorem formOf_pieces (e : Expr) (ps : List Piece) : formOf (e.pieces ++ ps) = e.form := by
  cases e with
  | literal value _ =>
      cases value with
      | boolean b => cases b <;> rfl
      | integer _ | decimal _ | text _ | null => rfl
  | named _ _ | negation _ _ => rfl
  | operation op left _ _ =>
      cases left with
      | literal value _ =>
          cases value with
          | boolean b => cases b <;> rfl
          | integer _ | decimal _ | text _ | null => rfl
      | named _ _ | negation _ _ | operation _ _ _ _ => rfl

theorem form_eq {e e' : Expr} {ps ps' : List Piece} (same : e.pieces ++ ps = e'.pieces ++ ps') :
    e.form = e'.form := by
  rw [← formOf_pieces e ps, same, formOf_pieces]

theorem pieces_inj {e e' : Expr} {ps ps' : List Piece} (h : e.Readable) (h' : e'.Readable)
    (same : e.pieces ++ ps = e'.pieces ++ ps') :
    withoutPlaces.expr e = withoutPlaces.expr e' ∧ ps = ps' := by
  have form := form_eq same
  induction e generalizing e' ps ps' with
  | literal value _ =>
      cases e' with
      | literal value' _ =>
          obtain ⟨head, rest⟩ := List.cons.inj same
          obtain rfl := Literal.sign_inj h h' (Piece.ofToken_inj head)
          exact ⟨rfl, rest⟩
      | named _ _ | negation _ _ | operation _ _ _ _ => contradiction
  | named name _ =>
      cases e' with
      | named name' _ =>
          obtain ⟨head, rest⟩ := List.cons.inj same
          obtain rfl := String.toList_inj.1 (congrArg Prod.snd (Piece.ofToken_inj head))
          exact ⟨rfl, rest⟩
      | literal _ _ | negation _ _ | operation _ _ _ _ => contradiction
  | negation operand _ ih =>
      cases e' with
      | negation operand' _ =>
          simp only [pieces, List.cons_append, List.append_assoc, List.cons.injEq, true_and] at same
          have readable : operand'.Readable := h'
          obtain ⟨inner, rest⟩ := ih h readable same (form_eq same)
          refine ⟨?_, (List.cons.inj rest).2⟩
          rw [Edit.expr, inner]
          rfl
      | literal _ _ | named _ _ | operation _ _ _ _ => contradiction
  | operation op left right _ ihl ihr =>
      cases e' with
      | operation op' left' right' _ =>
          simp only [pieces, List.cons_append, List.append_assoc, List.cons.injEq, true_and] at same
          obtain ⟨sameLeft, rest⟩ := ihl h.1 h'.1 same (form_eq same)
          simp only [List.cons.injEq, true_and] at rest
          obtain ⟨operator, rest⟩ := rest
          obtain rfl := BinaryOp.sign_inj (Piece.ofToken_inj operator)
          obtain ⟨sameRight, rest⟩ := ihr h.2 h'.2 rest (form_eq rest)
          refine ⟨?_, (List.cons.inj rest).2⟩
          rw [Edit.expr, sameLeft, sameRight]
          rfl
      | literal _ _ | named _ _ | negation _ _ => contradiction

theorem render_inj {e e' : Expr} {rest rest' : List Char} (h : e.Readable) (h' : e'.Readable)
    (ends : Piece.Ends rest) (ends' : Piece.Ends rest')
    (same : e.render.toList ++ rest = e'.render.toList ++ rest') :
    withoutPlaces.expr e = withoutPlaces.expr e' ∧ rest = rest' := by
  have cut := congrArg Piece.split same
  rw [split_render h ends, split_render h' ends'] at cut
  obtain ⟨sameExpr, sameRest⟩ := pieces_inj h h' cut
  refine ⟨sameExpr, ?_⟩
  rw [← Piece.flatMap_chars_split rest, sameRest, Piece.flatMap_chars_split]

end Expr

theorem IsName.not_mem_space {name : String} (h : IsName name) : ' ' ∉ name.toList := by
  obtain ⟨c, cs, spelled, letter, word⟩ := h.word
  rw [spelled, List.mem_cons]
  rintro (rfl | inside)
  · contradiction
  · exact absurd (word _ inside) (by decide)

theorem ValueType.not_mem_space (type : ValueType) : ' ' ∉ type.name.toList := by
  cases type <;> decide

theorem ValueType.name_inj {type type' : ValueType} (h : type.name = type'.name) :
    type = type' := by
  cases type <;> cases type' <;> first | rfl | contradiction

/-- A word ends in front of the space behind it. -/
theorem word_inj {word word' rest rest' : List Char} (h : ' ' ∉ word) (h' : ' ' ∉ word')
    (same : word ++ ' ' :: rest = word' ++ ' ' :: rest') : word = word' ∧ rest = rest' := by
  induction word generalizing word' with
  | nil =>
      cases word' with
      | nil => exact ⟨rfl, (List.cons.inj same).2⟩
      | cons c word' =>
          obtain ⟨rfl, -⟩ := List.cons.inj same
          exact absurd List.mem_cons_self h'
  | cons c word ih =>
      cases word' with
      | nil =>
          obtain ⟨rfl, -⟩ := List.cons.inj same
          exact absurd List.mem_cons_self h
      | cons c' word' =>
          obtain ⟨rfl, tail⟩ := List.cons.inj same
          obtain ⟨rfl, rests⟩ := ih (fun inside => h (List.mem_cons_of_mem _ inside))
            (fun inside => h' (List.mem_cons_of_mem _ inside)) tail
          exact ⟨rfl, rests⟩

namespace Stmt

inductive Form where
  | assignment
  | declaration
  | print
  | branch
  | loop
  | doLoop

def form : Stmt → Form
  | .assignment _ _ _ => .assignment
  | .declaration _ _ _ _ => .declaration
  | .print _ _ => .print
  | .branch _ _ _ _ => .branch
  | .loop _ _ _ => .loop
  | .doLoop _ _ _ => .doLoop

namespace Form

/-- The first word of the line for a statement of the form. -/
def word : Form → String
  | assignment => "Assignment"
  | declaration => "VarDeclaration"
  | print => "Print"
  | branch => "If"
  | loop => "While"
  | doLoop => "DoWhile"

theorem not_mem_space (f : Form) : ' ' ∉ f.word.toList := by
  cases f <;> decide

theorem word_inj {f f' : Form} (h : f.word = f'.word) : f = f' := by
  cases f <;> cases f' <;> first | rfl | contradiction

theorem starts_word (f : Form) : Outline.Starts f.word := by
  cases f <;> exact ⟨_, _, rfl, by decide⟩

end Form

/-- The names and expressions of the statement itself can be read back. -/
def ReadableLine : Stmt → Prop
  | .assignment name value _ => IsName name ∧ value.Readable
  | .declaration _ name init _ => IsName name ∧ ∀ e ∈ init, e.Readable
  | .print value _ => value.Readable
  | .branch condition _ _ _ | .loop condition _ _ | .doLoop _ condition _ => condition.Readable

/-- The statement without its blocks, with its line for a place. -/
def bare : Stmt → Stmt
  | .assignment name value loc => .assignment name (withoutPlaces.expr value) ⟨loc.line, 0⟩
  | .declaration type name init loc =>
      .declaration type name (init.map withoutPlaces.expr) ⟨loc.line, 0⟩
  | .print value loc => .print (withoutPlaces.expr value) ⟨loc.line, 0⟩
  | .branch condition _ _ loc => .branch (withoutPlaces.expr condition) [] none ⟨loc.line, 0⟩
  | .loop condition _ loc => .loop (withoutPlaces.expr condition) [] ⟨loc.line, 0⟩
  | .doLoop _ condition loc => .doLoop [] (withoutPlaces.expr condition) ⟨loc.line, 0⟩

end Stmt

namespace Outline

/-- The number of a line, at the end of a heading. -/
def mark (line : Nat) : List Char := ' ' :: '@' :: (toString line).toList

theorem mark_inj {line line' : Nat} (h : mark line = mark line') : line = line' := by
  have digits := congrArg Decimal.ofDigits (List.cons.inj (List.cons.inj h).2).2
  rwa [Nat.toString_eq_repr, Nat.toString_eq_repr, Nat.toList_repr, Nat.toList_repr,
    Decimal.ofDigits_toDigits, Decimal.ofDigits_toDigits] at digits

theorem ends_mark (line : Nat) : Piece.Ends (mark line) := by
  refine ⟨fun c hc => ?_, rfl⟩
  cases hc
  decide

theorem render_mark_inj {e e' : Expr} {line line' : Nat} (h : e.Readable) (h' : e'.Readable)
    (same : e.render.toList ++ mark line = e'.render.toList ++ mark line') :
    withoutPlaces.expr e = withoutPlaces.expr e' ∧ line = line' := by
  obtain ⟨exprs, marks⟩ := Expr.render_inj h h' (ends_mark line) (ends_mark line') same
  exact ⟨exprs, mark_inj marks⟩

/-- What stands between the first word and the number of the line. -/
def details : Stmt → List Char
  | .assignment name value _ => name.toList ++ ' ' :: '=' :: ' ' :: value.render.toList
  | .declaration type name (some init) _ =>
    type.name.toList ++ ' ' :: (name.toList ++ ' ' :: '=' :: ' ' :: init.render.toList)
  | .declaration type name none _ => type.name.toList ++ ' ' :: name.toList
  | .print value _ => value.render.toList
  | .branch condition _ _ _ | .loop condition _ _ | .doLoop _ condition _ => condition.render.toList

theorem toList_heading (s : Stmt) :
    (heading s).toList = s.form.word.toList ++ ' ' :: details s := by
  cases s with
  | assignment name value _ =>
      change ("Assignment " ++ name ++ " = " ++ value.render).toList =
        "Assignment".toList ++ ' ' :: _
      simp [details]
  | declaration type name init _ =>
      cases init with
      | none =>
          change ("VarDeclaration " ++ type.name ++ " " ++ name).toList =
            "VarDeclaration".toList ++ ' ' :: _
          simp [details]
      | some init =>
          change ("VarDeclaration " ++ type.name ++ " " ++ name ++ " = " ++ init.render).toList =
            "VarDeclaration".toList ++ ' ' :: _
          simp [details]
  | print value _ =>
      change ("Print " ++ value.render).toList = "Print".toList ++ ' ' :: _
      simp [details]
  | branch condition _ _ _ =>
      change ("If " ++ condition.render).toList = "If".toList ++ ' ' :: _
      simp [details]
  | loop condition _ _ =>
      change ("While " ++ condition.render).toList = "While".toList ++ ' ' :: _
      simp [details]
  | doLoop _ condition _ =>
      change ("DoWhile " ++ condition.render).toList = "DoWhile".toList ++ ' ' :: _
      simp [details]

theorem toList_label (s : Stmt) :
    (label s).toList = s.form.word.toList ++ ' ' :: (details s ++ mark s.location.line) := by
  rw [label, String.toList_append, String.toList_append, toList_heading]
  simp only [List.append_assoc, List.cons_append]
  rfl

theorem starts_label (s : Stmt) : Starts (label s) := by
  obtain ⟨c, cs, spelled, notBlank⟩ := s.form.starts_word
  refine ⟨c, cs ++ ' ' :: (details s ++ mark s.location.line), ?_, notBlank⟩
  rw [toList_label, spelled, List.cons_append]

/-- What stands behind the name of a variable that is declared, and behind the space. -/
def trailer (line : Nat) : Option Expr → List Char
  | some init => '=' :: ' ' :: (init.render.toList ++ mark line)
  | none => '@' :: (toString line).toList

theorem details_declaration (type : ValueType) (name : String) (init : Option Expr)
    (loc : Location) :
    details (.declaration type name init loc) ++ mark loc.line =
      type.name.toList ++ ' ' :: (name.toList ++ ' ' :: trailer loc.line init) := by
  cases init <;> simp [details, mark, trailer]

theorem trailer_inj {line line' : Nat} {init init' : Option Expr} (h : ∀ e ∈ init, e.Readable)
    (h' : ∀ e ∈ init', e.Readable) (same : trailer line init = trailer line' init') :
    init.map withoutPlaces.expr = init'.map withoutPlaces.expr ∧ line = line' := by
  cases init with
  | none =>
      cases init' with
      | none => exact ⟨rfl, mark_inj (congrArg (' ' :: ·) same)⟩
      | some init' => cases same
  | some init =>
      cases init' with
      | none => cases same
      | some init' =>
          simp only [trailer, List.cons.injEq, true_and] at same
          obtain ⟨inits, lines⟩ := render_mark_inj (h init rfl) (h' init' rfl) same
          exact ⟨congrArg some inits, lines⟩

/-- The line for a statement shows the statement but for its blocks. -/
theorem bare_eq_of_label {s s' : Stmt} (h : s.ReadableLine) (h' : s'.ReadableLine)
    (same : label s = label s') : s.bare = s'.bare := by
  have chars := congrArg String.toList same
  rw [toList_label, toList_label] at chars
  obtain ⟨words, rest⟩ := word_inj s.form.not_mem_space s'.form.not_mem_space chars
  have form := Stmt.Form.word_inj (String.toList_inj.1 words)
  cases s with
  | assignment name value loc =>
      cases s' with
      | assignment name' value' loc' =>
          simp only [details, Stmt.location, List.append_assoc, List.cons_append] at rest
          obtain ⟨names, rest⟩ := word_inj h.1.not_mem_space h'.1.not_mem_space rest
          simp only [List.cons.injEq, true_and] at rest
          obtain ⟨values, lines⟩ := render_mark_inj h.2 h'.2 rest
          rw [Stmt.bare, Stmt.bare, String.toList_inj.1 names, values, lines]
      | _ => contradiction
  | declaration type name init loc =>
      cases s' with
      | declaration type' name' init' loc' =>
          change details _ ++ mark loc.line = details _ ++ mark loc'.line at rest
          rw [details_declaration, details_declaration] at rest
          obtain ⟨types, rest⟩ := word_inj type.not_mem_space type'.not_mem_space rest
          obtain ⟨names, rest⟩ := word_inj h.1.not_mem_space h'.1.not_mem_space rest
          obtain ⟨inits, lines⟩ := trailer_inj h.2 h'.2 rest
          rw [Stmt.bare, Stmt.bare, ValueType.name_inj (String.toList_inj.1 types),
            String.toList_inj.1 names, inits, lines]
      | _ => contradiction
  | print value loc | branch value _ _ loc | loop value _ loc | doLoop _ value loc =>
      cases s' with
      | assignment _ _ _ | declaration _ _ _ _ => contradiction
      | print value' loc' | branch value' _ _ loc' | loop value' _ loc' | doLoop _ value' loc' =>
          first
          | contradiction
          | simp only [details, Stmt.location] at rest
            obtain ⟨values, lines⟩ := render_mark_inj h h' rest
            rw [Stmt.bare, Stmt.bare, values, lines]

end Outline

mutual

/-- Every name and every literal of the statement is of the given kinds. -/
def Stmt.Each (name : String → Prop) (literal : Literal → Prop) : Stmt → Prop
  | .assignment n value _ => name n ∧ value.Each name literal
  | .declaration _ n init _ => name n ∧ ∀ e ∈ init, e.Each name literal
  | .print value _ => value.Each name literal
  | .branch condition body (some otherwise) _ =>
    condition.Each name literal ∧ Block.Each name literal body ∧ Block.Each name literal otherwise
  | .branch condition body none _ | .loop condition body _ | .doLoop body condition _ =>
    condition.Each name literal ∧ Block.Each name literal body

def Block.Each (name : String → Prop) (literal : Literal → Prop) : List Stmt → Prop
  | [] => True
  | s :: rest => s.Each name literal ∧ Block.Each name literal rest

end

section both

variable {name name' name'' : String → Prop} {literal literal' literal'' : Literal → Prop}

theorem Expr.Each.both (names : ∀ n, name n → name' n → name'' n)
    (literals : ∀ v, literal v → literal' v → literal'' v) {e : Expr} (h : e.Each name literal)
    (h' : e.Each name' literal') : e.Each name'' literal'' := by
  induction e with
  | literal value _ => exact literals value h h'
  | named n _ => exact names n h h'
  | negation _ _ ih => exact ih h h'
  | operation _ _ _ _ ihl ihr => exact ⟨ihl h.1 h'.1, ihr h.2 h'.2⟩

mutual

theorem Stmt.Each.both (names : ∀ n, name n → name' n → name'' n)
    (literals : ∀ v, literal v → literal' v → literal'' v) :
    (s : Stmt) → s.Each name literal → s.Each name' literal' → s.Each name'' literal''
  | .assignment n _ _, h, h' => ⟨names n h.1 h'.1, h.2.both names literals h'.2⟩
  | .declaration _ n _ _, h, h' =>
    ⟨names n h.1 h'.1, fun e he => (h.2 e he).both names literals (h'.2 e he)⟩
  | .print _ _, h, h' => Expr.Each.both names literals h h'
  | .branch _ body (some otherwise) _, h, h' =>
    ⟨h.1.both names literals h'.1, Block.Each.both names literals body h.2.1 h'.2.1,
      Block.Each.both names literals otherwise h.2.2 h'.2.2⟩
  | .branch _ body none _, h, h' | .loop _ body _, h, h' | .doLoop body _ _, h, h' =>
    ⟨h.1.both names literals h'.1, Block.Each.both names literals body h.2 h'.2⟩

theorem Block.Each.both (names : ∀ n, name n → name' n → name'' n)
    (literals : ∀ v, literal v → literal' v → literal'' v) :
    (b : List Stmt) → Block.Each name literal b → Block.Each name' literal' b →
      Block.Each name'' literal'' b
  | [], _, _ => trivial
  | s :: rest, h, h' =>
    ⟨Stmt.Each.both names literals s h.1 h'.1, Block.Each.both names literals rest h.2 h'.2⟩

end

end both

theorem Stmt.Each.line {s : Stmt} (h : s.Each IsName Literal.Readable) : s.ReadableLine := by
  cases s with
  | assignment _ _ _ | declaration _ _ _ _ | print _ _ => exact h
  | branch _ _ otherwise _ => cases otherwise <;> exact h.1
  | loop _ _ _ | doLoop _ _ _ => exact h.1

mutual

/-- The statement as an outline shows it: of places it has the lines of statements alone. -/
def Stmt.shown : Stmt → Stmt
  | .branch condition body (some otherwise) loc =>
    .branch (withoutPlaces.expr condition) (Block.shown body) (some (Block.shown otherwise))
      ⟨loc.line, 0⟩
  | .branch condition body none loc =>
    .branch (withoutPlaces.expr condition) (Block.shown body) none ⟨loc.line, 0⟩
  | .loop condition body loc =>
      .loop (withoutPlaces.expr condition) (Block.shown body) ⟨loc.line, 0⟩
  | .doLoop body condition loc =>
      .doLoop (Block.shown body) (withoutPlaces.expr condition) ⟨loc.line, 0⟩
  | s => s.bare

def Block.shown : List Stmt → List Stmt
  | [] => []
  | s :: rest => s.shown :: Block.shown rest

end

namespace Outline

/-- The trees of the blocks of a statement. -/
def below : Stmt → List Tree
  | .branch _ body (some otherwise) _ => [.node "then" (trees body), .node "else" (trees otherwise)]
  | .branch _ body none _ => [.node "then" (trees body)]
  | .loop _ body _ | .doLoop body _ _ => [.node "body" (trees body)]
  | .assignment _ _ _ | .declaration _ _ _ _ | .print _ _ => []

theorem tree_eq_node (s : Stmt) : tree s = .node (label s) (below s) := by
  cases s with
  | branch _ _ otherwise _ => cases otherwise <;> rw [tree, below]
  | loop _ _ _ | doLoop _ _ _ => rw [tree, below]
  | assignment _ _ _ | declaration _ _ _ _ | print _ _ => rfl

theorem eq_of_tree {s s' : Stmt} (h : s.Each IsName Literal.Readable)
    (h' : s'.Each IsName Literal.Readable) (same : tree s = tree s') :
    s.bare = s'.bare ∧ below s = below s' := by
  rw [tree_eq_node, tree_eq_node] at same
  obtain ⟨labels, blocks⟩ := Tree.node.inj same
  exact ⟨bare_eq_of_label h.line h'.line labels, blocks⟩

mutual

theorem shown_of_tree : (s s' : Stmt) → s.Each IsName Literal.Readable →
    s'.Each IsName Literal.Readable → tree s = tree s' → s.shown = s'.shown
  | .branch condition body (some otherwise) loc, s', h, h', same => by
      obtain ⟨bare, blocks⟩ := eq_of_tree h h' same
      cases s' with
      | branch condition' body' otherwise' loc' =>
          cases otherwise' with
          | none => exact absurd (List.cons.inj blocks).2 (List.cons_ne_nil _ _)
          | some otherwise' =>
              obtain ⟨conditions, -, -, places⟩ := Stmt.branch.inj bare
              obtain ⟨first, rest⟩ := List.cons.inj blocks
              have bodies := shown_of_trees body body' h.2.1 h'.2.1 (Tree.node.inj first).2
              have others := shown_of_trees otherwise otherwise' h.2.2 h'.2.2
                (Tree.node.inj (List.cons.inj rest).1).2
              rw [Stmt.shown, Stmt.shown, conditions, bodies, others, places]
      | _ => contradiction
  | .branch condition body none loc, s', h, h', same => by
      obtain ⟨bare, blocks⟩ := eq_of_tree h h' same
      cases s' with
      | branch condition' body' otherwise' loc' =>
          cases otherwise' with
          | some otherwise' => exact absurd (List.cons.inj blocks).2.symm (List.cons_ne_nil _ _)
          | none =>
              obtain ⟨conditions, -, -, places⟩ := Stmt.branch.inj bare
              have bodies :=
                shown_of_trees body body' h.2 h'.2 (Tree.node.inj (List.cons.inj blocks).1).2
              rw [Stmt.shown, Stmt.shown, conditions, bodies, places]
      | _ => contradiction
  | .loop condition body loc, s', h, h', same => by
      obtain ⟨bare, blocks⟩ := eq_of_tree h h' same
      cases s' with
      | loop condition' body' loc' =>
          obtain ⟨conditions, -, places⟩ := Stmt.loop.inj bare
          have bodies :=
            shown_of_trees body body' h.2 h'.2 (Tree.node.inj (List.cons.inj blocks).1).2
          rw [Stmt.shown, Stmt.shown, conditions, bodies, places]
      | _ => contradiction
  | .doLoop body condition loc, s', h, h', same => by
      obtain ⟨bare, blocks⟩ := eq_of_tree h h' same
      cases s' with
      | doLoop body' condition' loc' =>
          obtain ⟨-, conditions, places⟩ := Stmt.doLoop.inj bare
          have bodies :=
            shown_of_trees body body' h.2 h'.2 (Tree.node.inj (List.cons.inj blocks).1).2
          rw [Stmt.shown, Stmt.shown, conditions, bodies, places]
      | _ => contradiction
  | .assignment _ _ _, s', h, h', same | .declaration _ _ _ _, s', h, h', same
  | .print _ _, s', h, h', same => by
      have bare := (eq_of_tree h h' same).1
      cases s' <;> first | exact bare | contradiction

theorem shown_of_trees : (b b' : List Stmt) → Block.Each IsName Literal.Readable b →
    Block.Each IsName Literal.Readable b' → trees b = trees b' → Block.shown b = Block.shown b'
  | [], [], _, _, _ => rfl
  | s :: b, s' :: b', h, h', same => by
      obtain ⟨first, rest⟩ := List.cons.inj same
      rw [Block.shown, Block.shown, shown_of_tree s s' h.1 h'.1 first,
        shown_of_trees b b' h.2 h'.2 rest]

end

theorem starts_blockLabel : Starts "then" ∧ Starts "else" ∧ Starts "body" :=
  ⟨⟨_, _, rfl, by decide⟩, ⟨_, _, rfl, by decide⟩, ⟨_, _, rfl, by decide⟩⟩

mutual

theorem allStart_tree : (s : Stmt) → (tree s).AllStart
  | .branch _ body (some otherwise) _ =>
    ⟨starts_label _, ⟨starts_blockLabel.1, eachStarts_trees body⟩,
      ⟨starts_blockLabel.2.1, eachStarts_trees otherwise⟩, trivial⟩
  | .branch _ body none _ => ⟨starts_label _, ⟨starts_blockLabel.1, eachStarts_trees body⟩, trivial⟩
  | .loop _ body _ | .doLoop body _ _ =>
    ⟨starts_label _, ⟨starts_blockLabel.2.2, eachStarts_trees body⟩, trivial⟩
  | .assignment _ _ _ | .declaration _ _ _ _ | .print _ _ => ⟨starts_label _, trivial⟩

theorem eachStarts_trees : (b : List Stmt) → EachStarts (trees b)
  | [] => trivial
  | s :: rest => ⟨allStart_tree s, eachStarts_trees rest⟩

end

end Outline

namespace Program

/-- The program as its outline shows it. -/
def shown (p : Program) : Program := ⟨Block.shown p.statements⟩

/-- Every name and every literal of the program is of the given kinds. -/
def Each (name : String → Prop) (literal : Literal → Prop) (p : Program) : Prop :=
  Block.Each name literal p.statements

theorem allStart_tree (p : Program) : p.tree.AllStart := by
  have first : Outline.Starts "Program (" := ⟨_, _, rfl, by decide⟩
  exact ⟨(first.append _).append _, Outline.eachStarts_trees _⟩

theorem shown_of_outline {p p' : Program} (h : p.Each IsName Literal.Readable)
    (h' : p'.Each IsName Literal.Readable) (same : p.outline = p'.outline) :
    p.shown = p'.shown := by
  rw [outline_eq_lines, outline_eq_lines, ← List.append_nil (p.tree.lines 0),
    ← List.append_nil (p'.tree.lines 0)] at same
  have nothing : Outline.Above 1 [] := fun _ none => nomatch none
  obtain ⟨trees, -⟩ :=
    p.tree.lines_inj p'.tree p.allStart_tree p'.allStart_tree nothing nothing same
  exact congrArg Program.mk
    (Outline.shown_of_trees p.statements p'.statements h h' (Outline.Tree.node.inj trees).2)

end Program

end PasoFrontEnd
