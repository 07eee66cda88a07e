import BucketQuery.Sql.Expr

/-! What a renderer writes, in pieces.

A text is a list of pieces: fixed text, and values, which give way to placeholders or to literals. No dialect
and no mode has a part in the pieces of an expression or a statement. A renderer adds pieces to what is there
already (`Writes`): their text goes on where the text ends, and their placeholders count on from the
parameters that are there, so this is proved of any text and any parameters in front. Main statements,
`Expr.render_eq` and `Select.render_eq`: what is rendered are the pieces, filled in. -/
namespace BucketQuery.Sql

open BucketQuery.Filter (Connective)

inductive Piece where
  | text (s : String)
  | value (v : Value)
deriving DecidableEq, Repr

/-! ### Pieces -/

/-- Values with commas between them. -/
def listPieces : List Value → List Piece
  | [] => []
  | [v] => [.value v]
  | v :: rest => .value v :: .text ", " :: listPieces rest

namespace Expr

mutual

def pieces : Expr → List Piece
  | .raw text => [.text text]
  | .compare column op value => [.text (column ++ " " ++ op.text ++ " "), .value value]
  | .like column pattern negated =>
    [.text (column ++ if negated then " NOT LIKE " else " LIKE "), .value pattern]
  | .between column low high negated =>
    [.text (column ++ if negated then " NOT BETWEEN " else " BETWEEN "), .value low, .text " AND ",
      .value high]
  | .isNull column negated => [.text (column ++ if negated then " IS NOT NULL" else " IS NULL")]
  | .inList _ [] => [.text "1=0"]
  | .inList column (v :: rest) =>
    .text (column ++ " IN (") :: (listPieces (v :: rest) ++ [.text ")"])
  | .not e => .text "NOT (" :: (e.pieces ++ [.text ")"])
  | .nested e => .text "(" :: (e.pieces ++ [.text ")"])
  | .chain [] => []
  | .chain ((_, e) :: rest) => e.pieces ++ restPieces rest

def restPieces : List (Connective × Expr) → List Piece
  | [] => []
  | (c, e) :: rest => .text (" " ++ c.text ++ " ") :: (e.pieces ++ restPieces rest)

end

end Expr

namespace Select

def head (s : Select) : Piece :=
  .text ("SELECT " ++ s.projection ++ " FROM " ++ s.table ++ " WHERE 1=1")

def wherePieces (filters : List Expr) : List Piece :=
  filters.flatMap fun e => .text " AND " :: e.pieces

def tail (s : Select) : List Piece :=
  (match s.groupBy with
    | some key => [.text (" GROUP BY " ++ key)]
    | none => []) ++
  if s.orderBy.isEmpty then [] else [.text (" ORDER BY " ++ ", ".intercalate s.orderBy)]

def pieces (s : Select) : List Piece := s.head :: (wherePieces s.filters ++ s.tail)

end Select

/-! ### Pieces filled in -/

/-- The values that a mode makes parameters of. -/
def fragmentParams (mode : LiteralMode) (values : List Value) : List Value :=
  match mode with
  | .bound => values
  | .inline => []

namespace Piece

/-- The text with placeholders, the first of them at place `i`. -/
def boundText (d : Dialect) : (i : Nat) → List Piece → String
  | _, [] => ""
  | i, .text s :: rest => s ++ boundText d i rest
  | i, .value _ :: rest => d.placeholder i ++ boundText d (i + 1) rest

/-- The text with literals. -/
def inlineText (d : Dialect) : List Piece → String
  | [] => ""
  | .text s :: rest => s ++ inlineText d rest
  | .value v :: rest => d.literal v ++ inlineText d rest

def values : List Piece → List Value
  | [] => []
  | .text _ :: rest => values rest
  | .value v :: rest => v :: values rest

@[simp] theorem values_append (ps qs : List Piece) : values (ps ++ qs) = values ps ++ values qs := by
  induction ps with
  | nil => rfl
  | cons p rest ih => cases p <;> simp [values, ih]

theorem boundText_append (d : Dialect) (i : Nat) (ps qs : List Piece) :
    boundText d i (ps ++ qs) = boundText d i ps ++ boundText d (i + (values ps).length) qs := by
  induction ps generalizing i with
  | nil => simp [boundText, values]
  | cons p rest ih =>
    cases p with
    | text s => rw [List.cons_append, boundText, boundText, values, ih, String.append_assoc]
    | value v =>
      rw [List.cons_append, boundText, boundText, values, ih, String.append_assoc, List.length_cons,
        Nat.add_assoc, Nat.add_comm 1]

theorem inlineText_append (d : Dialect) (ps qs : List Piece) :
    inlineText d (ps ++ qs) = inlineText d ps ++ inlineText d qs := by
  induction ps with
  | nil => simp [inlineText]
  | cons p rest ih =>
    cases p with
    | text s => rw [List.cons_append, inlineText, inlineText, ih, String.append_assoc]
    | value v => rw [List.cons_append, inlineText, inlineText, ih, String.append_assoc]

/-- Without values the two renderings have one text. -/
theorem boundText_of_values (d : Dialect) (i : Nat) {ps : List Piece} (h : values ps = []) :
    boundText d i ps = inlineText d ps := by
  induction ps with
  | nil => rfl
  | cons p rest ih =>
    cases p with
    | text s => rw [boundText, inlineText, ih h]
    | value v => cases h

variable (d : Dialect) (mode : LiteralMode)

/-- The text of pieces in a mode; their first placeholder, if there are any, is at place `i`. -/
def textFrom (i : Nat) (ps : List Piece) : String :=
  match mode with
  | .bound => boundText d i ps
  | .inline => inlineText d ps

/-- The parameters of pieces. -/
def params (ps : List Piece) : List Value := fragmentParams mode (values ps)

/-- Pieces as a text of their own. -/
def render (ps : List Piece) : Rendered :=
  match mode with
  | .bound => ⟨boundText d 0 ps, values ps⟩
  | .inline => ⟨inlineText d ps, []⟩

theorem render_eq (ps : List Piece) : render d mode ps = ⟨textFrom d mode 0 ps, params mode ps⟩ := by
  cases mode <;> rfl

theorem params_append (ps qs : List Piece) : params mode (ps ++ qs) = params mode ps ++ params mode qs := by
  cases mode with
  | bound => exact values_append ps qs
  | inline => rfl

theorem params_of_values {ps : List Piece} (h : values ps = []) : params mode ps = [] := by
  cases mode with
  | bound => exact h
  | inline => rfl

theorem textFrom_text (i : Nat) (s : String) (rest : List Piece) :
    textFrom d mode i (.text s :: rest) = s ++ textFrom d mode i rest := by
  cases mode <;> rfl

theorem textFrom_append (i : Nat) (ps qs : List Piece) :
    textFrom d mode i (ps ++ qs) =
      textFrom d mode i ps ++ textFrom d mode (i + (params mode ps).length) qs := by
  cases mode with
  | bound => exact boundText_append d i ps qs
  | inline => exact inlineText_append d ps qs

theorem textFrom_of_values (i : Nat) {ps : List Piece} (h : values ps = []) :
    textFrom d mode i ps = inlineText d ps := by
  cases mode with
  | bound => exact boundText_of_values d i h
  | inline => rfl

end Piece

/-! ### The renderer -/

/-- What is written in a step are these pieces, whatever is there already. -/
def Writes (r : Renderer) (write : Rendered → Rendered) (ps : List Piece) : Prop :=
  ∀ out, write out = ⟨out.sql ++ Piece.textFrom r.dialect r.mode out.params.length ps,
    out.params ++ Piece.params r.mode ps⟩

namespace Renderer
variable {r : Renderer}

theorem writes_nothing : Writes r (fun out => out) [] := by
  intro out
  have htext : Piece.textFrom r.dialect r.mode out.params.length [] = "" := by cases r.mode <;> rfl
  rw [htext, String.append_empty, Piece.params_of_values r.mode rfl, List.append_nil]

theorem writes_push (s : String) : Writes r (·.push s) [.text s] := by
  intro out
  have htext : Piece.textFrom r.dialect r.mode out.params.length [.text s] = s ++ "" := by
    cases r.mode <;> rfl
  rw [htext, String.append_empty, Piece.params_of_values r.mode rfl, List.append_nil]
  rfl

/-- A placeholder is numbered by the parameters in front of it. -/
theorem writes_value (v : Value) : Writes r (r.writeValue v) [.value v] := by
  intro out
  obtain ⟨d, mode⟩ := r
  cases mode with
  | bound =>
    show Rendered.mk _ _ = ⟨out.sql ++ (d.placeholder out.params.length ++ ""), out.params ++ [v]⟩
    rw [String.append_empty]
  | inline =>
    show Rendered.mk _ _ = ⟨out.sql ++ (d.literal v ++ ""), out.params ++ []⟩
    rw [String.append_empty, List.append_nil]

theorem writes_comp {f g : Rendered → Rendered} {ps qs : List Piece} (hf : Writes r f ps)
    (hg : Writes r g qs) : Writes r (fun out => g (f out)) (ps ++ qs) := by
  intro out
  show g (f out) = _
  rw [hg (f out), hf out, Piece.textFrom_append, Piece.params_append, List.length_append,
    String.append_assoc, List.append_assoc]

/-- One step for each member of a list. -/
theorem writes_foldl {α : Type} {write : α → Rendered → Rendered} {ps : α → List Piece}
    (h : ∀ a, Writes r (write a) (ps a)) (as : List α) :
    Writes r (fun out => as.foldl (fun out a => write a out) out) (as.flatMap ps) := by
  induction as with
  | nil => exact writes_nothing
  | cons a as ih => exact writes_comp (h a) ih

theorem listPieces_cons (v : Value) (rest : List Value) :
    listPieces (v :: rest) = .value v :: rest.flatMap fun w => [.text ", ", .value w] := by
  induction rest generalizing v with
  | nil => rfl
  | cons w rest ih =>
    show .value v :: .text ", " :: listPieces (w :: rest) = _
    rw [ih, List.flatMap_cons]
    rfl

theorem writes_list (v : Value) (rest : List Value) :
    Writes r (fun out => rest.foldl (fun out w => r.writeValue w (out.push ", ")) (r.writeValue v out))
      (listPieces (v :: rest)) := by
  rw [listPieces_cons]
  exact writes_comp (writes_value v)
    (writes_foldl (fun w => writes_comp (writes_push ", ") (writes_value w)) rest)

mutual

/-- An expression is written as its pieces. -/
theorem writes_expr : (e : Expr) → Writes r (r.writeExpr e) e.pieces
  | .raw text => writes_push text
  | .compare _ _ v => writes_comp (writes_push _) (writes_value v)
  | .like _ v _ => writes_comp (writes_push _) (writes_value v)
  | .between _ low high _ =>
    writes_comp (writes_push _) (writes_comp (writes_value low)
      (writes_comp (writes_push " AND ") (writes_value high)))
  | .isNull .. => writes_push _
  | .inList _ [] => writes_push "1=0"
  | .inList _ (v :: rest) =>
    writes_comp (writes_push _) (writes_comp (writes_list v rest) (writes_push ")"))
  | .not e => writes_comp (writes_push "NOT (") (writes_comp (writes_expr e) (writes_push ")"))
  | .nested e => writes_comp (writes_push "(") (writes_comp (writes_expr e) (writes_push ")"))
  | .chain [] => writes_nothing
  | .chain ((_, e) :: rest) =>
    writes_comp (f := r.writeExpr e) (g := r.writeRest rest) (writes_expr e) (writes_rest rest)

theorem writes_rest : (items : List (Connective × Expr)) →
    Writes r (r.writeRest items) (Expr.restPieces items)
  | [] => writes_nothing
  | (c, e) :: rest =>
    writes_comp (writes_push (" " ++ c.text ++ " ")) (writes_comp (writes_expr e) (writes_rest rest))

end

/-- The conditions of a statement, each behind an AND. -/
theorem writes_filters (filters : List Expr) :
    Writes r (fun out => filters.foldl (fun out e => r.writeExpr e (out.push " AND ")) out)
      (Select.wherePieces filters) :=
  writes_foldl (fun e => writes_comp (writes_push " AND ") (writes_expr e)) filters

theorem writes_groupBy (key : Option String) :
    Writes r (fun out => match key with
        | some key => out.push (" GROUP BY " ++ key)
        | none => out)
      (match key with
        | some key => [.text (" GROUP BY " ++ key)]
        | none => []) := by
  cases key with
  | none => exact writes_nothing
  | some key => exact writes_push _

theorem writes_orderBy (names : List String) :
    Writes r (fun out => if names.isEmpty then out else out.push (" ORDER BY " ++ ", ".intercalate names))
      (if names.isEmpty then [] else [.text (" ORDER BY " ++ ", ".intercalate names)]) := by
  cases names with
  | nil => exact writes_nothing
  | cons name names => exact writes_push _

/-- What is written from the start is a text of its own. -/
theorem render_of_writes {write : Rendered → Rendered} {ps : List Piece} (h : Writes r write ps) :
    write .empty = Piece.render r.dialect r.mode ps := by
  rw [h .empty, Piece.render_eq]
  exact congrArg (Rendered.mk · _) String.empty_append

end Renderer

/-- **An expression is rendered in pieces**, whatever the dialect and mode. -/
theorem Expr.render_eq (e : Expr) (d : Dialect) (mode : LiteralMode) :
    e.render d mode = Piece.render d mode e.pieces :=
  Renderer.render_of_writes (r := ⟨d, mode⟩) (Renderer.writes_expr e)

/-- **A statement is rendered in pieces**, whatever the dialect and mode. -/
theorem Select.render_eq (s : Select) (d : Dialect) (mode : LiteralMode) :
    s.render d mode = Piece.render d mode s.pieces := by
  have htail := Renderer.writes_comp (r := ⟨d, mode⟩) (Renderer.writes_groupBy s.groupBy)
    (Renderer.writes_orderBy s.orderBy)
  exact Renderer.render_of_writes (r := ⟨d, mode⟩) (Renderer.writes_comp (Renderer.writes_push _)
    (Renderer.writes_comp (Renderer.writes_filters s.filters) htail))

end BucketQuery.Sql
