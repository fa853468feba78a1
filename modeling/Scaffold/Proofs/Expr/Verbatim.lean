import Mathlib.Data.List.Infix
import Scaffold.Proofs.Expr.Calls
import Scaffold.Proofs.Expr.Delimited

namespace Scaffold.Expr

lemma segmentsFrom_marker (r : Reader) (cs : List Char) :
    segmentsFrom (.marker r) cs = match r.run .brace cs with
      | (.ok e, rest) => .expr e :: segments rest
      | (.error f, _) => [.fault f] := by
  induction cs generalizing r with
  | nil =>
    rw [segmentsFrom, Scanner.finish, Reader.run]
    cases h : r.finish .brace with
    | ok e => exact absurd h (r.finish_brace e)
    | error f => rfl
  | cons c cs ih =>
    rw [segmentsFrom, Scanner.step, Reader.run]
    cases h : r.feed .brace c with
    | more q => exact ih q
    | closed e | failed f => rfl

lemma segments_marker (c : Char) (cs : List Char) :
    segments ('$' :: '{' :: c :: cs) = match parse .brace (c :: cs) with
      | (.ok e, rest) => .expr e :: segments rest
      | (.error f, _) => [.fault f] := by
  have hopen : segments ('$' :: '{' :: c :: cs) =
      segmentsFrom (.marker .start) (c :: cs) := rfl
  rw [hopen, segmentsFrom_marker, parse]

namespace Lexer

lemma consume_literal (text : String) :
    blank.consume (Token.literal text).spelling = some ([.literal text], blank) := by
  have hquote : blank.step '\'' = ⟨[], .ok (quoted [])⟩ := rfl
  have hend : (quoted (text.toList.reverse ++ [])).consume ['\''] =
      some ([.literal text], blank) := by
    simp [consume, step]
  rw [Token.spelling, List.cons_append, consume_cons hquote,
    consume_append (consume_quoted [] text.toList), hend]
  rfl

end Lexer

lemma parse_literal (text : String) (rest : List Char) :
    parse .brace ((Token.literal text).spelling ++ '}' :: rest) = (.ok (.lit text), rest) := by
  have hreach : Reader.start.reach (Token.literal text).spelling =
      some ⟨.blank, ⟨.terms ⟨[], [], .lit text⟩, []⟩⟩ := by
    rw [Reader.reach_eq_consume, Reader.start, Lexer.consume_literal]
    rfl
  have hclosed : Reader.feed .brace ⟨.blank, ⟨.terms ⟨[], [], .lit text⟩, []⟩⟩ '}' =
      .closed (.lit text) :=
    (Reader.feed_brace_eq_closed_iff _ _ _).mpr ⟨rfl, rfl⟩
  rw [parse, Reader.run_append _ _ _ _ _ hreach, Reader.run, hclosed]

theorem expand_quoted (fs : FileSystem) (ctx : Context) (text rest : List Char) :
    expand fs ctx (['$', '{', '\''] ++ text.flatMap Token.quoteChar ++ ['\'', '}'] ++ rest) =
      ⟨text ++ (expand fs ctx rest).text, (expand fs ctx rest).result⟩ := by
  have hsplit : ['$', '{', '\''] ++ text.flatMap Token.quoteChar ++ ['\'', '}'] ++ rest =
      '$' :: '{' :: ((Token.literal (String.ofList text)).spelling ++ '}' :: rest) := by
    simp [Token.spelling]
  have hsegments : segments ('$' :: '{' :: ((Token.literal (String.ofList text)).spelling ++
      '}' :: rest)) = .expr (.lit (String.ofList text)) :: segments rest := by
    have hparse := parse_literal (String.ofList text) rest
    rw [Token.spelling, List.cons_append, List.cons_append] at hparse ⊢
    rw [segments_marker, hparse]
  have hwrite : evaluate fs (expandAt fs (fs.entries.size + 299)) ctx
      (.lit (String.ofList text)) = ⟨text, .ok true⟩ := by
    rw [evaluate, String.toList_ofList, write_then_present]
  rw [hsplit, expand_eq, hsegments, expandSegments, hwrite, Rendering.bind_of_ok rfl, expand_eq]

/-- A text that opens no marker, unless by its last two characters, behind which none can follow. -/
def Unmarked (cs : List Char) : Prop :=
  ∀ a b, cs = a ++ '$' :: '{' :: b → b = []

lemma Unmarked.tail {c : Char} {cs : List Char} (h : Unmarked (c :: cs)) : Unmarked cs :=
  fun a b hcs => h (c :: a) b (congrArg (c :: ·) hcs)

lemma unmarked_of_tails {cs : List Char} (h : ∀ t ∈ cs.tails, ['$', '{'] <+: t → t.length = 2) :
    Unmarked cs := by
  rintro a b rfl
  have hlen := h ('$' :: '{' :: b) ((List.mem_tails _ _).mpr (List.suffix_append a _)) ⟨b, rfl⟩
  simpa using hlen

lemma segmentsFrom_unmarked (cs : List Char) :
    (Unmarked cs → segmentsFrom .text cs = cs.map .char) ∧
    (Unmarked ('$' :: cs) → segmentsFrom .dollar cs = ('$' :: cs).map .char) := by
  induction cs with
  | nil => exact ⟨fun _ => rfl, fun _ => rfl⟩
  | cons c cs ih =>
    constructor
    · intro h
      by_cases hc : c = '$'
      · subst hc
        exact ih.2 h
      · simp [segmentsFrom, Scanner.step, hc, ih.1 h.tail]
    · intro h
      by_cases hb : c = '{'
      · subst hb
        obtain rfl := h [] cs rfl
        rfl
      by_cases hd : c = '$'
      · subst hd
        simp [segmentsFrom, Scanner.step, ih.2 h.tail]
      · simp [segmentsFrom, Scanner.step, hb, hd, ih.1 h.tail.tail]

lemma expandSegments_char (eval : Expr → Rendering Bool) (cs : List Char) :
    expandSegments eval (cs.map .char) = ⟨cs, .ok ()⟩ := by
  induction cs with
  | nil => rfl
  | cons c cs ih =>
    rw [List.map_cons, expandSegments, ih]
    exact Rendering.bind_of_ok rfl _

section

variable {fs : FileSystem} {ctx : Context} {text name : List Char} {file : Expr} {p : Bool}

lemma expand_of_unmarked (h : Unmarked text) (fs : FileSystem) (ctx : Context) :
    expand fs ctx text = ⟨text, .ok ()⟩ := by
  rw [expand_eq, segments, (segmentsFrom_unmarked text).1 h, expandSegments_char]

lemma present_of_readText {path : Path} (h : readText fs path = .ok text) :
    present fs path = pure true := by
  rw [present, exists?_of_readText h]

lemma render_include (hname : render fs ctx file = ⟨name, .ok p⟩)
    (h : readText fs (locate ctx name) = .ok text) :
    render fs ctx (.call "include" file .nil []) = ⟨text, .ok true⟩ := by
  have hfile : evaluate fs (expand fs) ctx file = ⟨name, .ok p⟩ := hname
  have hcall : render fs ctx (.call "include" file .nil []) =
      (evaluate fs (expand fs) ctx file).capture >>= fun n =>
        includeFile fs (locate ctx n.1) := by
    rw [render, evaluate]
    rfl
  rw [hcall, Rendering.capture_of_ok hfile, Rendering.pure_then, includeFile,
    present_of_readText h, Rendering.pure_then, if_pos rfl, h]
  exact write_then_present text

lemma render_make_unmarked (hname : render fs ctx file = ⟨name, .ok p⟩)
    (h : readText fs (locate ctx name) = .ok text) (hplain : Unmarked text) {define : Defines}
    (hdefine : ∀ d ∈ define.toList, ∃ q, (render fs ctx d.2).result = .ok q)
    (undefine : List String) :
    render fs ctx (.call "make" file define undefine) = ⟨text, .ok true⟩ := by
  rw [render_call_make hname, present_of_readText h, Rendering.pure_then, if_pos rfl,
    evaluateDefines_of_ok define hdefine, Rendering.pure_then, makeFile_of_text h,
    expand_of_unmarked hplain]
  rfl

end

end Scaffold.Expr
