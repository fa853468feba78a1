import Mathlib.Tactic
import Scaffold.Json.Printer
import Scaffold.Json.Reader

/-! What a reader makes of a printed value. Texts are printed with their escapes and read back
character by character, and every layout whose breaks are blank is read alike. Numbers are left
out: a number ends only with the character behind it. -/

namespace Scaffold.Json

open Text.Utf8 (Piece)

structure Layout.Silent (l : Layout) : Prop where
  lineBreak : ∀ depth, ∀ c ∈ l.lineBreak depth, isSpace c = true
  colon : ∃ cs, l.colon = ':' :: cs ∧ ∀ c ∈ cs, isSpace c = true

lemma Layout.indented_silent : Layout.indented.Silent where
  lineBreak depth c hc := by
    rcases List.mem_cons.1 hc with rfl | hc
    · rfl
    · rw [List.eq_of_mem_replicate hc]
      rfl
  colon := ⟨[' '], rfl, by simp [isSpace]⟩

mutual

def Value.isNumberless : Value → Bool
  | .number _ => false
  | .array items => itemsNumberless items
  | .object members => membersNumberless members
  | _ => true

def itemsNumberless : List Value → Bool
  | [] => true
  | v :: vs => v.isNumberless && itemsNumberless vs

def membersNumberless : List (String × Value) → Bool
  | [] => true
  | m :: ms => m.2.isNumberless && membersNumberless ms

end

namespace Reader

def Reads (r : Reader) (cs : List Char) (r' : Reader) : Prop :=
  cs.foldlM (stepChar .standard) r = some r'

section

variable {r r₁ r₂ : Reader} {cs ds : List Char}

lemma Reads.nil (r : Reader) : r.Reads [] r := rfl

lemma Reads.cons {c : Char} (hc : r.stepChar .standard c = some r₁) (h : r₁.Reads cs r₂) :
    r.Reads (c :: cs) r₂ := by
  rw [Reads, List.foldlM_cons, hc]
  exact h

lemma Reads.single {c : Char} (hc : r.stepChar .standard c = some r₁) : r.Reads [c] r₁ :=
  .cons hc (.nil r₁)

lemma Reads.append (h : r.Reads cs r₁) (h' : r₁.Reads ds r₂) : r.Reads (cs ++ ds) r₂ := by
  rw [Reads] at *
  rw [List.foldlM_append, h]
  exact h'

lemma Reads.run (h : r.Reads cs r₁) : r.run .standard (cs.map .char) = r₁.broken none := by
  induction cs generalizing r with
  | nil =>
    cases h
    rfl
  | cons c cs ih =>
    rw [Reads, List.foldlM_cons] at h
    obtain ⟨next, hs, h⟩ := Option.bind_eq_some_iff.1 h
    rw [List.map_cons, Reader.run, step, hs]
    exact ih h

end

/-! Blanks. -/

def Mode.isLoose : Mode → Bool
  | .value | .valueOrEnd | .key | .keyOrEnd | .colon | .behind | .done _ => true
  | _ => false

lemma stepChar_blank {r : Reader} {c : Char} (hr : Mode.isLoose r.mode = true)
    (hc : isSpace c = true) : r.stepChar .standard c = some r := by
  obtain ⟨st, m⟩ := r
  cases m <;> simp only [Mode.isLoose, Bool.false_eq_true] at hr <;>
    simp [stepChar, stepBehind, hc]

lemma reads_blanks {r : Reader} {cs : List Char} (hr : Mode.isLoose r.mode = true)
    (hcs : ∀ c ∈ cs, isSpace c = true) : r.Reads cs r := by
  induction cs with
  | nil => exact .nil r
  | cons c cs ih =>
    exact .cons (stepChar_blank hr (hcs c (by simp))) (ih fun d hd => hcs d (by simp [hd]))

/-! Texts. -/

section

variable {st : List Open} {isKey : Bool} {text : List Piece}

lemma reads_digit {digits : List Nat} {high : Option Nat} {d : Nat} (h : d < 16)
    (hl : digits.length < 3) :
    stepChar .standard ⟨st, .code isKey text high digits⟩ (Text.Digits.digit d) =
      some ⟨st, .code isKey text high (d :: digits)⟩ := by
  simp [stepChar, Text.Digits.value?_digit d h, hl]

lemma reads_code {n : Nat} (h : n < 0x20) :
    Reads ⟨st, .code isKey text none []⟩ (Text.Digits.write 16 4 n)
      ⟨st, .string isKey (.char (Char.ofNat n) :: text)⟩ := by
  have hm (k : Nat) : k % 16 < 16 := Nat.mod_lt k (by decide)
  refine .cons (reads_digit (hm _) (by decide)) (.cons (reads_digit (hm _) (by simp))
    (.cons (reads_digit (hm _) (by simp)) (.single ?_)))
  have hn : ((n / 16 / 16 / 16 % 16 * 16 + n / 16 / 16 % 16) * 16 + n / 16 % 16) * 16 + n % 16 =
      n := by omega
  have hs : ¬(0xD800 ≤ n ∧ n ≤ 0xDBFF) ∧ ¬(0xDC00 ≤ n ∧ n ≤ 0xDFFF) := by omega
  simp [stepChar, Text.Digits.value?_digit _ (hm n), hn, endCode, hs]

lemma reads_backslash : stepChar .standard ⟨st, .string isKey text⟩ '\\' =
    some ⟨st, .escape isKey text⟩ := by
  simp [stepChar]

lemma reads_escape {c e : Char} (hu : c ≠ 'u') (he : simpleEscape? c = some e) :
    Reads ⟨st, .string isKey text⟩ ['\\', c] ⟨st, .string isKey (.char e :: text)⟩ :=
  .cons reads_backslash (.single (by simp [stepChar, hu, he]))

lemma reads_escapeChar (c : Char) :
    Reads ⟨st, .string isKey text⟩ (escapeChar c) ⟨st, .string isKey (.char c :: text)⟩ := by
  unfold escapeChar
  split_ifs with hq hb hf hn hr ht hc
  · obtain rfl | rfl := hq <;> exact reads_escape (by decide) rfl
  · exact hb ▸ reads_escape (by decide) rfl
  · exact hf ▸ reads_escape (by decide) rfl
  · exact hn ▸ reads_escape (by decide) rfl
  · exact hr ▸ reads_escape (by decide) rfl
  · exact ht ▸ reads_escape (by decide) rfl
  · have hu : stepChar .standard ⟨st, .escape isKey text⟩ 'u' =
        some ⟨st, .code isKey text none []⟩ := by simp [stepChar]
    have hcode := Reads.cons reads_backslash (.cons hu (reads_code hc))
    rwa [Char.ofNat_toNat] at hcode
  · obtain ⟨hq, hb⟩ := not_or.1 hq
    exact .single (by simp only [stepChar, hq, hb, hc, if_false])

lemma reads_escaped (cs : List Char) : Reads ⟨st, .string isKey text⟩ (cs.flatMap escapeChar)
    ⟨st, .string isKey ((cs.map .char).reverse ++ text)⟩ := by
  induction cs generalizing text with
  | nil => exact .nil _
  | cons c cs ih =>
    rw [List.flatMap_cons, List.map_cons, List.reverse_cons, List.append_assoc]
    exact (reads_escapeChar c).append ih

lemma reads_quoted (s : String) :
    Reads ⟨st, .string isKey []⟩ (s.toList.flatMap escapeChar ++ ['"'])
      (endString st isKey (s.toList.map .char).reverse) := by
  refine (reads_escaped s.toList).append (.single ?_)
  simp [stepChar]

lemma reads_stringText (s : String) :
    Reads ⟨st, .value⟩ (stringText s) (put st (.string (.ok s))) := by
  have hopen : stepChar .standard ⟨st, .value⟩ '"' = some ⟨st, .string false []⟩ := by
    simp [stepChar, isSpace, beginValue]
  simpa [stringText, endString, Text.Utf8.textOf_map_char] using Reads.cons hopen (reads_quoted s)

lemma reads_key {members : List (Content × Draft)} {m : Mode} (hm : m = .key ∨ m = .keyOrEnd)
    (s : String) : Reads ⟨.object members none :: st, m⟩ (stringText s)
      ⟨.object members (some (.ok s)) :: st, .colon⟩ := by
  have hopen : stepChar .standard ⟨.object members none :: st, m⟩ '"' =
      some ⟨.object members none :: st, .string true []⟩ := by
    obtain rfl | rfl := hm <;> simp [stepChar, isSpace]
  simpa [stringText, endString, Text.Utf8.textOf_map_char] using Reads.cons hopen (reads_quoted s)

end

/-! Values. -/

lemma head_print (l : Layout) (depth : Nat) {v : Value} (h : v.isNumberless = true) :
    ∃ c cs, print l depth v = c :: cs ∧ c ≠ ']' ∧ isSpace c = false := by
  match v with
  | .null => exact ⟨_, _, rfl, by decide, rfl⟩
  | .bool true => exact ⟨_, _, rfl, by decide, rfl⟩
  | .bool false => exact ⟨_, _, rfl, by decide, rfl⟩
  | .string s => exact ⟨_, _, rfl, by decide, rfl⟩
  | .array [] => exact ⟨_, _, rfl, by decide, rfl⟩
  | .array (v :: vs) => exact ⟨_, _, rfl, by decide, rfl⟩
  | .object [] => exact ⟨_, _, rfl, by decide, rfl⟩
  | .object (m :: ms) => exact ⟨_, _, rfl, by decide, rfl⟩

lemma Reads.first {l : Layout} {depth : Nat} {v : Value} {st : List Open} {r : Reader}
    (hv : v.isNumberless = true) (h : Reads ⟨st, .value⟩ (print l depth v) r) :
    Reads ⟨st, .valueOrEnd⟩ (print l depth v) r := by
  obtain ⟨c, cs, he, hc, hs⟩ := head_print l depth hv
  have hstep : stepChar .standard ⟨st, .valueOrEnd⟩ c = stepChar .standard ⟨st, .value⟩ c := by
    simp [stepChar, hc, hs]
  rw [he, Reads, List.foldlM_cons] at h ⊢
  rwa [hstep]

lemma reads_colon {l : Layout} (hl : l.Silent) {st : List Open} :
    Reads ⟨st, .colon⟩ l.colon ⟨st, .value⟩ := by
  obtain ⟨cs, he, hcs⟩ := hl.colon
  exact he ▸ .cons (by simp [stepChar, isSpace]) (reads_blanks rfl hcs)

lemma reads_member {l : Layout} (hl : l.Silent) {st : List Open} {acc : List (Content × Draft)}
    {m : Mode} (hm : m = .key ∨ m = .keyOrEnd) {key : String} {cs : List Char} {d : Draft}
    (h : Reads ⟨.object acc (some (.ok key)) :: st, .value⟩ cs
      (put (.object acc (some (.ok key)) :: st) d)) :
    Reads ⟨.object acc none :: st, m⟩ (stringText key ++ l.colon ++ cs)
      ⟨.object ((.ok key, d) :: acc) none :: st, .behind⟩ :=
  ((reads_key hm key).append (reads_colon hl)).append h

lemma close_array (st : List Open) (v : Value) (vs : List Value) :
    stepChar .standard ⟨.array ((Draft.ofItems vs).reverse ++ [.ofValue v]) :: st, .behind⟩ ']' =
      some (put st (.ofValue (.array (v :: vs)))) := by
  simp [stepChar, stepBehind, isSpace, close, Draft.ofValue, Draft.ofItems]

lemma close_object (st : List Open) (m : String × Value) (ms : List (String × Value)) :
    stepChar .standard ⟨.object ((Draft.ofMembers ms).reverse ++
      [(.ok m.1, .ofValue m.2)]) none :: st, .behind⟩ '}' =
      some (put st (.ofValue (.object (m :: ms)))) := by
  simp [stepChar, stepBehind, isSpace, close, Draft.ofValue, Draft.ofMembers]

mutual

lemma reads_print {l : Layout} (hl : l.Silent) (st : List Open) (depth : Nat) :
    ∀ v : Value, v.isNumberless = true →
      Reads ⟨st, .value⟩ (print l depth v) (put st (.ofValue v))
  | .null, _ => rfl
  | .bool true, _ => rfl
  | .bool false, _ => rfl
  | .string s, _ => reads_stringText s
  | .array [], _ => rfl
  | .array (v :: vs), h => by
    obtain ⟨hv, hvs⟩ := Bool.and_eq_true_iff.1 h
    have hopen : Reads ⟨st, .value⟩ ('[' :: l.lineBreak (depth + 1))
        ⟨.array [] :: st, .valueOrEnd⟩ := .cons rfl (reads_blanks rfl (hl.lineBreak _))
    have hfirst := Reads.first hv (reads_print hl (.array [] :: st) (depth + 1) v hv)
    have hrest := reads_printItems hl st [.ofValue v] (depth + 1) vs hvs
    have hbreak := reads_blanks (r := ⟨.array ((Draft.ofItems vs).reverse ++ [.ofValue v]) :: st,
      .behind⟩) rfl (hl.lineBreak depth)
    exact (((hopen.append hfirst).append hrest).append hbreak).append
      (.single (close_array st v vs))
  | .object [], _ => rfl
  | .object (m :: ms), h => by
    obtain ⟨hm, hms⟩ := Bool.and_eq_true_iff.1 h
    have hopen : Reads ⟨st, .value⟩ ('{' :: l.lineBreak (depth + 1))
        ⟨.object [] none :: st, .keyOrEnd⟩ := .cons rfl (reads_blanks rfl (hl.lineBreak _))
    have hfirst := reads_member hl (.inr rfl)
      (reads_print hl (.object [] (some (.ok m.1)) :: st) (depth + 1) m.2 hm)
    have hrest := reads_printMembers hl st [(.ok m.1, .ofValue m.2)] (depth + 1) ms hms
    have hbreak := reads_blanks (r := ⟨.object ((Draft.ofMembers ms).reverse ++
      [(.ok m.1, .ofValue m.2)]) none :: st, .behind⟩) rfl (hl.lineBreak depth)
    simpa only [print, List.cons_append, List.append_assoc] using
      (((hopen.append hfirst).append hrest).append hbreak).append (.single (close_object st m ms))

lemma reads_printItems {l : Layout} (hl : l.Silent) (st : List Open) (acc : List Draft)
    (depth : Nat) : ∀ vs : List Value, itemsNumberless vs = true →
      Reads ⟨.array acc :: st, .behind⟩ (printItems l depth vs)
        ⟨.array ((Draft.ofItems vs).reverse ++ acc) :: st, .behind⟩
  | [], _ => rfl
  | v :: vs, h => by
    obtain ⟨hv, hvs⟩ := Bool.and_eq_true_iff.1 h
    have hcomma : Reads ⟨.array acc :: st, .behind⟩ (',' :: l.lineBreak depth)
        ⟨.array acc :: st, .value⟩ := .cons rfl (reads_blanks rfl (hl.lineBreak _))
    have hfirst := reads_print hl (.array acc :: st) depth v hv
    have hrest := reads_printItems hl st (.ofValue v :: acc) depth vs hvs
    simpa [Draft.ofItems, printItems] using (hcomma.append hfirst).append hrest

lemma reads_printMembers {l : Layout} (hl : l.Silent) (st : List Open)
    (acc : List (Content × Draft)) (depth : Nat) :
    ∀ ms : List (String × Value), membersNumberless ms = true →
      Reads ⟨.object acc none :: st, .behind⟩ (printMembers l depth ms)
        ⟨.object ((Draft.ofMembers ms).reverse ++ acc) none :: st, .behind⟩
  | [], _ => rfl
  | m :: ms, h => by
    obtain ⟨hm, hms⟩ := Bool.and_eq_true_iff.1 h
    have hcomma : Reads ⟨.object acc none :: st, .behind⟩ (',' :: l.lineBreak depth)
        ⟨.object acc none :: st, .key⟩ := .cons rfl (reads_blanks rfl (hl.lineBreak _))
    have hfirst := reads_member hl (.inl rfl)
      (reads_print hl (.object acc (some (.ok m.1)) :: st) depth m.2 hm)
    have hrest := reads_printMembers hl st ((.ok m.1, .ofValue m.2) :: acc) depth ms hms
    simpa [Draft.ofMembers, printMembers] using (hcomma.append hfirst).append hrest

end

end Reader

theorem read_print {l : Layout} (hl : l.Silent) {v : Value} (hv : v.isNumberless = true) :
    read .standard ((print l 0 v).map .char) = ⟨.ofValue v, true⟩ :=
  (Reader.reads_print hl [] 0 v hv).run

theorem read_indented {v : Value} (hv : v.isNumberless = true) :
    read .standard (Text.Utf8.piecesOf v.indented.toUTF8) = ⟨.ofValue v, true⟩ := by
  rw [Text.Utf8.piecesOf_toUTF8, Value.indented, String.toList_ofList]
  exact read_print Layout.indented_silent hv

end Scaffold.Json
