import Spreadsheet.Proofs.NameTokens

/-!
How tokens lie in their text. The lexer cuts a text into blanks, comments and tokens, each of them
found first at its place, until the text ends or nothing is found. Main statement: tokens are
slices of the text, one behind another, with nothing but blanks and comments between them; a text
without tokens is cut in the same way up to the place where nothing is found.
-/
namespace Spreadsheet

open Text

namespace Text

/-! ## Bytes -/

theorem dropBytes_cons {n : Nat} (c : Char) (s : List Char) (hn : 0 < n) :
    dropBytes n (c :: s) = dropBytes (n - c.utf8Size) s := by
  obtain ⟨m, rfl⟩ := Nat.exists_eq_succ_of_ne_zero (Nat.ne_of_gt hn)
  rfl

theorem takeBytes_cons {n : Nat} (c : Char) (s : List Char) (hn : 0 < n) :
    takeBytes n (c :: s) = c :: takeBytes (n - c.utf8Size) s := by
  obtain ⟨m, rfl⟩ := Nat.exists_eq_succ_of_ne_zero (Nat.ne_of_gt hn)
  rfl

theorem dropBytes_append (a s : List Char) : dropBytes (byteLength a) (a ++ s) = s := by
  induction a with
  | nil => rw [show byteLength [] = 0 from rfl, List.nil_append, dropBytes]
  | cons c a ih =>
    have hpos := Char.utf8Size_pos c
    rw [List.cons_append, byteLength_cons, dropBytes_cons c (a ++ s) (by omega),
      show c.utf8Size + byteLength a - c.utf8Size = byteLength a by omega, ih]

theorem takeBytes_append (a s : List Char) : takeBytes (byteLength a) (a ++ s) = a := by
  induction a with
  | nil => rw [show byteLength [] = 0 from rfl, takeBytes]
  | cons c a ih =>
    have hpos := Char.utf8Size_pos c
    rw [List.cons_append, byteLength_cons, takeBytes_cons c (a ++ s) (by omega),
      show c.utf8Size + byteLength a - c.utf8Size = byteLength a by omega, ih]

end Text

theorem Misfit.locate_append (fault : SyntaxFault) (before after : List Char) :
    Misfit.locate (before ++ after) ⟨fault, byteLength before⟩ =
      ⟨fault, byteLength before, String.ofList after⟩ := by
  rw [locate, dropBytes_append]

namespace Scan

theorem bounded_times (p : Char → Bool) (n : Nat) : Bounded (times p n) := by
  intro s m h
  unfold times at h
  split at h
  next hmatch =>
    cases h
    rw [List.length_take] at hmatch
    omega
  next => cases h

theorem takes_times (p : Char → Bool) (n : Nat) :
    Takes (fun w => w.length = n ∧ ∀ c ∈ w, p c = true) (times p n) := by
  intro s m h
  unfold times at h
  split at h
  next hmatch =>
    cases h
    exact ⟨hmatch.1, List.all_eq_true.1 hmatch.2⟩
  next => cases h

end Scan

namespace TokenRule

open Scan

/-! ## The rules of both grammars -/

/-- The rules that formulas do not have. -/
def onlyDefinitions : List TokenRule :=
  [⟨none, comment⟩, ⟨some .date, date⟩, ⟨some .define, define⟩, ⟨some .assign, assign⟩]

theorem mem_rules {g : Grammar} {rule : TokenRule} (h : rule ∈ g.rules) :
    rule ∈ Grammar.formula.rules ∨ (g = .definitions ∧ rule ∈ onlyDefinitions) := by
  cases g with
  | formula => exact .inl h
  | definitions =>
    simp only [Grammar.rules, List.mem_append, List.mem_cons, List.not_mem_nil, or_false,
      onlyDefinitions, true_and] at h ⊢
    grind

theorem bounded_date : Bounded date :=
  bounded_andThen (bounded_times _ _) (bounded_andThen (bounded_one _)
    (bounded_andThen (bounded_times _ _) (bounded_andThen (bounded_one _)
      (bounded_andThen (bounded_times _ _)
        (bounded_andThen local_wordEnd.bounded local_done.bounded)))))

theorem bounded_rule {g : Grammar} {rule : TokenRule} (h : rule ∈ g.rules) :
    Bounded rule.scan := by
  rcases mem_rules h with hformula | ⟨-, honly⟩
  · exact bounded_formula hformula
  · simp only [onlyDefinitions, List.mem_cons, List.not_mem_nil, or_false] at honly
    rcases honly with rfl | rfl | rfl | rfl
    · exact bounded_andThen (bounded_one _) (bounded_andThen (bounded_many _) local_done.bounded)
    · exact bounded_date
    · exact bounded_andThen (local_word (by decide)).bounded
        (bounded_andThen local_wordEnd.bounded local_done.bounded)
    · exact (local_word (by decide)).bounded

/-- No rule matches nothing: whatever is found starts with a character of ASCII. -/
theorem takes_startsAscii_rule {g : Grammar} {rule : TokenRule} (h : rule ∈ g.rules) :
    Takes StartsAscii rule.scan := by
  rcases mem_rules h with hformula | ⟨-, honly⟩
  · exact Grammar.takes_startsAscii hformula
  · simp only [onlyDefinitions, List.mem_cons, List.not_mem_nil, or_false] at honly
    rcases honly with rfl | rfl | rfl | rfl
    · exact takes_starts_andThen _ (takes_starts_char (by decide))
    · apply takes_starts_andThen
      refine (takes_times Char.isDigit 4).mono ?_
      rintro w ⟨hlength, hdigits⟩
      obtain ⟨c, rest, rfl⟩ := List.exists_cons_of_length_eq_add_one hlength
      have hbounds : 48 ≤ c.toNat ∧ c.toNat ≤ 57 :=
        Char.isDigit_iff_toNat.1 (hdigits c List.mem_cons_self)
      exact ⟨c, rest, rfl, by omega⟩
    · exact takes_starts_andThen _ (takes_starts_word (by decide))
    · exact takes_starts_word (by decide)

end TokenRule

namespace Grammar

open TokenRule Scan

/-- What is found stands at the front of the text and is not empty. -/
theorem exists_of_firstMatch? {g : Grammar} {s : List Char} {kind : Option TokenKind} {n : Nat}
    (h : g.firstMatch? s = some (kind, n)) :
    ∃ w rest, s = w ++ rest ∧ w ≠ [] ∧ w.length = n := by
  obtain ⟨rule, hrule, -, hscan⟩ := rule_of_firstMatch? h
  obtain ⟨c, more, htake, -⟩ := takes_startsAscii_rule hrule s n hscan
  refine ⟨s.take n, s.drop n, (List.take_append_drop n s).symm, ?_, ?_⟩
  · rw [htake]
    exact List.cons_ne_nil c more
  · rw [List.length_take, Nat.min_eq_left (bounded_rule hrule s n hscan)]

theorem firstMatch?_eq_none_iff {g : Grammar} {s : List Char} :
    g.firstMatch? s = none ↔ ∀ rule ∈ g.rules, rule.scan s = none := by
  simp only [firstMatch?, List.findSome?_eq_none_iff, Option.map_eq_none_iff]

/-! ## Cutting a text -/

/-- In front of `rest`, the text from byte `offset` on is cut into blanks, matches that are dropped
and the given tokens, each of them found first at its place. -/
inductive Cuts (g : Grammar) (rest : List Char) : Nat → List Char → List Token → Prop
  | done (offset : Nat) : Cuts g rest offset [] []
  | blank {offset : Nat} {c : Char} {s : List Char} {ts : List Token} (hc : isBlank c = true)
    (h : Cuts g rest (offset + c.utf8Size) s ts) : Cuts g rest offset (c :: s) ts
  | dropped {offset : Nat} {w s : List Char} {ts : List Token}
    (hfirst : w.head?.map isBlank = some false)
    (hmatch : g.firstMatch? (w ++ (s ++ rest)) = some (none, w.length))
    (h : Cuts g rest (offset + byteLength w) s ts) : Cuts g rest offset (w ++ s) ts
  | token {offset : Nat} {kind : TokenKind} {w s : List Char} {ts : List Token}
    (hfirst : w.head?.map isBlank = some false)
    (hmatch : g.firstMatch? (w ++ (s ++ rest)) = some (some kind, w.length))
    (h : Cuts g rest (offset + byteLength w) s ts) :
    Cuts g rest offset (w ++ s) (⟨kind, String.ofList w, offset⟩ :: ts)

/-- What the lexer ends with: all of the text is cut, or all in front of a place that is no blank
and where nothing is found. -/
def Ended (g : Grammar) (offset : Nat) (s : List Char) : Except Misfit (List Token) → Prop
  | .ok ts => g.Cuts [] offset s ts
  | .error misfit => ∃ before c after ts, s = before ++ c :: after ∧
    g.Cuts (c :: after) offset before ts ∧ isBlank c = false ∧ g.firstMatch? (c :: after) = none ∧
      misfit = ⟨.unrecognized c, offset + byteLength before⟩

section Steps

variable {g : Grammar} {offset : Nat} {s w : List Char} {result : Except Misfit (List Token)}

theorem Ended.blank {c : Char} (hc : isBlank c = true)
    (h : g.Ended (offset + c.utf8Size) s result) : g.Ended offset (c :: s) result := by
  cases result with
  | ok ts => exact Cuts.blank hc h
  | error misfit =>
    obtain ⟨before, d, after, ts, rfl, hcuts, hd, hnone, rfl⟩ := h
    refine ⟨c :: before, d, after, ts, rfl, .blank hc hcuts, hd, hnone, ?_⟩
    rw [byteLength_cons, Nat.add_assoc]

theorem Ended.dropped (hfirst : w.head?.map isBlank = some false)
    (hmatch : g.firstMatch? (w ++ s) = some (none, w.length))
    (h : g.Ended (offset + byteLength w) s result) : g.Ended offset (w ++ s) result := by
  cases result with
  | ok ts => exact Cuts.dropped hfirst (by rwa [List.append_nil]) h
  | error misfit =>
    obtain ⟨before, d, after, ts, rfl, hcuts, hd, hnone, rfl⟩ := h
    refine ⟨w ++ before, d, after, ts, (List.append_assoc _ _ _).symm, .dropped hfirst hmatch hcuts,
      hd, hnone, ?_⟩
    rw [byteLength_append, Nat.add_assoc]

theorem Ended.token {kind : TokenKind} (hfirst : w.head?.map isBlank = some false)
    (hmatch : g.firstMatch? (w ++ s) = some (some kind, w.length))
    (h : g.Ended (offset + byteLength w) s result) :
    g.Ended offset (w ++ s) (result.map (⟨kind, String.ofList w, offset⟩ :: ·)) := by
  cases result with
  | ok ts => exact Cuts.token hfirst (by rwa [List.append_nil]) h
  | error misfit =>
    obtain ⟨before, d, after, ts, rfl, hcuts, hd, hnone, rfl⟩ := h
    refine ⟨w ++ before, d, after, _, (List.append_assoc _ _ _).symm, .token hfirst hmatch hcuts, hd,
      hnone, ?_⟩
    rw [byteLength_append, Nat.add_assoc]

end Steps

/-- A match in pieces: its first character, and those that are passed over behind it. -/
theorem cut_of_firstMatch? {g : Grammar} {c : Char} {s : List Char} {kind : Option TokenKind}
    {n : Nat} (offset : Nat) (hc : ¬isBlank c = true)
    (h : g.firstMatch? (c :: s) = some (kind, n + 1)) :
    (c :: s.take n).head?.map isBlank = some false ∧
      g.firstMatch? (c :: s.take n ++ s.drop n) = some (kind, (c :: s.take n).length) ∧
        offset + c.utf8Size + byteLength (s.take n) = offset + byteLength (c :: s.take n) := by
  obtain ⟨rule, hrule, -, hscan⟩ := rule_of_firstMatch? h
  have hle := bounded_rule hrule _ _ hscan
  have hlength : (s.take n).length = n := by
    rw [List.length_cons] at hle
    rw [List.length_take]
    omega
  refine ⟨congrArg some (eq_false_of_ne_true hc), ?_, ?_⟩
  · rw [List.cons_append, List.take_append_drop, h, List.length_cons, hlength]
  · rw [byteLength_cons, Nat.add_assoc]

/-- The lexer, which may be inside of a match, goes on to the end of the text or to a misfit. -/
theorem ended_tokensFrom (g : Grammar) (offset passed : Nat) (s : List Char) :
    g.Ended (offset + byteLength (s.take passed)) (s.drop passed)
      (g.tokensFrom offset passed s) := by
  fun_induction tokensFrom g offset passed s with
  | case1 offset passed =>
    rw [List.take_nil, List.drop_nil]
    exact Cuts.done _
  | case2 offset c rest next n ih =>
    rw [List.take_succ_cons, List.drop_succ_cons, byteLength_cons, ← Nat.add_assoc]
    exact ih
  | case3 offset c rest next hblank ih => exact Ended.blank hblank ih
  | case4 offset c rest next hblank n hmatch ih =>
    obtain ⟨hfirst, hfound, hbehind⟩ := cut_of_firstMatch? offset hblank hmatch
    rw [hbehind] at ih
    have hall := Ended.dropped hfirst hfound ih
    rwa [List.cons_append, List.take_append_drop] at hall
  | case5 offset c rest next hblank kind n hmatch tokens htokens ih =>
    obtain ⟨hfirst, hfound, hbehind⟩ := cut_of_firstMatch? offset hblank hmatch
    rw [hbehind, htokens] at ih
    have hall := Ended.token hfirst hfound ih
    rwa [List.cons_append, List.take_append_drop] at hall
  | case6 offset c rest next hblank kind n hmatch misfit htokens ih =>
    obtain ⟨hfirst, hfound, hbehind⟩ := cut_of_firstMatch? offset hblank hmatch
    rw [hbehind, htokens] at ih
    have hall := Ended.token hfirst hfound ih
    rwa [List.cons_append, List.take_append_drop] at hall
  | case7 offset c rest hblank hdropped htoken =>
    refine ⟨[], c, rest, [], rfl, .done _, eq_false_of_ne_true hblank, ?_, rfl⟩
    cases hmatch : g.firstMatch? (c :: rest) with
    | none => rfl
    | some found =>
      -- nothing is found that is empty
      obtain ⟨w, more, -, hne, hlength⟩ := exists_of_firstMatch? hmatch
      obtain ⟨kind, n⟩ := found
      obtain ⟨m, rfl⟩ : ∃ m, n = m + 1 :=
        Nat.exists_eq_succ_of_ne_zero (hlength ▸ List.length_pos_iff.2 hne).ne'
      cases kind with
      | none => exact (hdropped m hmatch).elim
      | some kind => exact (htoken kind m hmatch).elim

theorem ended_tokens (g : Grammar) (s : List Char) : g.Ended 0 s (g.tokens s) :=
  g.ended_tokensFrom 0 0 s

theorem tokensFrom_dropped (g : Grammar) (offset : Nat) {w s : List Char}
    (hfirst : w.head?.map isBlank = some false)
    (hmatch : g.firstMatch? (w ++ s) = some (none, w.length)) :
    g.tokensFrom offset 0 (w ++ s) = g.tokensFrom (offset + byteLength w) 0 s := by
  cases w with
  | nil => cases hfirst
  | cons c w =>
    have hc : ¬isBlank c = true := by rw [Option.some.inj hfirst]; decide
    have hpassed := tokensFrom_passed g (offset + c.utf8Size) w s
    rw [List.cons_append, tokensFrom, if_neg hc, ← List.cons_append, hmatch, List.length_cons]
    dsimp only
    rw [hpassed, byteLength_cons, ← Nat.add_assoc]

theorem Cuts.tokensFrom_eq {g : Grammar} {offset : Nat} {s : List Char} {ts : List Token}
    (h : g.Cuts [] offset s ts) : g.tokensFrom offset 0 s = .ok ts := by
  induction h with
  | done => rfl
  | blank hc _ ih => rw [tokensFrom_blank _ _ _ hc, ih]
  | dropped hfirst hmatch _ ih =>
    rw [List.append_nil] at hmatch
    rw [tokensFrom_dropped _ _ hfirst hmatch, ih]
  | token hfirst hmatch _ ih =>
    rw [List.append_nil] at hmatch
    rw [tokensFrom_word _ _ hfirst hmatch, ih]
    rfl

/-- A text has tokens just if it can be cut into them. -/
theorem tokens_eq_ok_iff {g : Grammar} {s : List Char} {ts : List Token} :
    g.tokens s = .ok ts ↔ g.Cuts [] 0 s ts := by
  refine ⟨fun h => ?_, Cuts.tokensFrom_eq⟩
  have hended := g.ended_tokens s
  rwa [h] at hended

theorem exists_of_tokenize {g : Grammar} {input : String} {ts : List Token}
    (h : tokenize g input = .ok ts) :
    ∃ found, g.Cuts [] 0 input.toList found ∧ ts = found ++ [finish input.toList] := by
  unfold tokenize at h
  cases hresult : g.tokens input.toList with
  | error misfit =>
    rw [hresult] at h
    cases h
  | ok found =>
    rw [hresult] at h
    cases h
    exact ⟨found, tokens_eq_ok_iff.1 hresult, rfl⟩

/-! ## What lies between tokens -/

/-- A text that lies between tokens or at one end of them, with `rest` behind it: blanks and, in
definitions, comments, which end with their line. -/
inductive Gap (g : Grammar) (rest : List Char) : List Char → Prop
  | nil : Gap g rest []
  | blank {c : Char} {s : List Char} (hc : isBlank c = true) (h : Gap g rest s) :
    Gap g rest (c :: s)
  | comment {body s : List Char} (hg : g = .definitions) (hbody : ∀ c ∈ body, c ≠ '\n')
    (hend : ∀ c ∈ (s ++ rest).head?, c = '\n') (h : Gap g rest s) :
    Gap g rest ('#' :: body ++ s)

theorem comment_cons (s : List Char) :
    comment ('#' :: s) = some ((s.takeWhile (· != '\n')).length + 1) := by
  have hcomment : comment = andThen (char '#') (andThen (many (· != '\n')) fun _ => some 0) := rfl
  rw [hcomment, andThen_of_some (n := 1) _ rfl, List.drop_one, List.tail_cons,
    andThen_of_some (n := (s.takeWhile (· != '\n')).length) _ rfl, Nat.add_comm]
  rfl

/-- What is dropped is a comment. -/
theorem exists_of_dropped {g : Grammar} {w s : List Char}
    (h : g.firstMatch? (w ++ s) = some (none, w.length)) :
    g = .definitions ∧ ∃ body, w = '#' :: body ∧ (∀ c ∈ body, c ≠ '\n') ∧
      ∀ c ∈ s.head?, c = '\n' := by
  obtain ⟨rule, hrule, hkind, hscan⟩ := rule_of_firstMatch? h
  obtain ⟨hg, hcomment⟩ : g = .definitions ∧ rule.scan = comment := by
    rcases mem_rules hrule with hformula | ⟨hg, honly⟩
    · simp only [rules, shared, List.cons_append, List.nil_append, List.mem_cons,
        List.not_mem_nil, or_false] at hformula
      rcases hformula with rfl | rfl | rfl | rfl | rfl | rfl | rfl | rfl | rfl | rfl <;> cases hkind
    · simp only [onlyDefinitions, List.mem_cons, List.not_mem_nil, or_false] at honly
      rcases honly with rfl | rfl | rfl | rfl
      · exact ⟨hg, rfl⟩
      all_goals cases hkind
  rw [hcomment] at hscan
  have htakes := ((takes_char '#').andThen (takes_many (· != '\n')).last) (w ++ s) w.length hscan
  rw [List.take_left] at htakes
  obtain ⟨-, body, rfl, hbody, rfl⟩ := htakes
  refine ⟨hg, body, rfl, fun c hc => bne_iff_ne.1 (hbody c hc), fun c hc => ?_⟩
  -- the comment is as long as it can be
  rw [List.singleton_append, List.cons_append, comment_cons, Option.some.injEq, List.length_cons,
    Nat.add_right_cancel_iff] at hscan
  have hwhole := take_takeWhile (· != '\n') (body ++ s)
  rw [hscan, List.take_left] at hwhole
  have hbehind : (body ++ s).dropWhile (· != '\n') = s := by
    have hall := List.takeWhile_append_dropWhile (p := (· != '\n')) (l := body ++ s)
    rw [← hwhole] at hall
    exact List.append_cancel_left hall
  have hhead := List.head?_dropWhile_not (· != '\n') (body ++ s)
  rw [hbehind, Option.mem_def.1 hc] at hhead
  simpa using hhead

/-- The tokens lie in the text, which starts at byte `offset` and has `rest` behind it: in front of
each of them and behind the last one there is a gap, and each is found first at its place. -/
def LaidOut (g : Grammar) (rest : List Char) : Nat → List Token → List Char → Prop
  | _, [], s => g.Gap rest s
  | offset, t :: ts, s => ∃ gap after, s = gap ++ (t.text.toList ++ after) ∧
    g.Gap (t.text.toList ++ (after ++ rest)) gap ∧ t.offset = offset + byteLength gap ∧
      g.firstMatch? (t.text.toList ++ (after ++ rest)) =
        some (some t.kind, t.text.toList.length) ∧
      g.LaidOut rest (t.offset + byteLength t.text.toList) ts after

section Layout

variable {g : Grammar} {rest s w : List Char} {offset : Nat} {ts : List Token}

theorem LaidOut.blank {c : Char} (hc : isBlank c = true)
    (h : g.LaidOut rest (offset + c.utf8Size) ts s) : g.LaidOut rest offset ts (c :: s) := by
  cases ts with
  | nil => exact .blank hc h
  | cons t ts =>
    obtain ⟨gap, after, rfl, hgap, hoffset, hmore⟩ := h
    refine ⟨c :: gap, after, rfl, .blank hc hgap, ?_, hmore⟩
    rw [hoffset, byteLength_cons, Nat.add_assoc]

theorem LaidOut.comment (hmatch : g.firstMatch? (w ++ (s ++ rest)) = some (none, w.length))
    (h : g.LaidOut rest (offset + byteLength w) ts s) : g.LaidOut rest offset ts (w ++ s) := by
  obtain ⟨hg, body, rfl, hbody, hend⟩ := exists_of_dropped hmatch
  cases ts with
  | nil => exact .comment hg hbody hend h
  | cons t ts =>
    obtain ⟨gap, after, rfl, hgap, hoffset, hmore⟩ := h
    refine ⟨'#' :: body ++ gap, after, (List.append_assoc _ _ _).symm,
      .comment hg hbody ?_ hgap, ?_, hmore⟩
    · simpa only [List.append_assoc] using hend
    · rw [hoffset, byteLength_append, Nat.add_assoc]

theorem Cuts.laidOut (h : g.Cuts rest offset s ts) : g.LaidOut rest offset ts s := by
  induction h with
  | done offset => exact Gap.nil
  | blank hc _ ih => exact ih.blank hc
  | dropped hfirst hmatch _ ih => exact ih.comment hmatch
  | token hfirst hmatch _ ih =>
    rename_i offset kind w s ts _
    refine ⟨[], s, ?_, .nil, rfl, ?_, ?_⟩
    · rw [String.toList_ofList]
      rfl
    · rw [String.toList_ofList]
      exact hmatch
    · rw [String.toList_ofList]
      exact ih

/-- Each token is found where it says that it starts. -/
theorem LaidOut.exists_of_mem (h : g.LaidOut rest offset ts s) : ∀ t ∈ ts, ∃ before after,
    s = before ++ (t.text.toList ++ after) ∧ t.offset = offset + byteLength before ∧
      g.firstMatch? (t.text.toList ++ (after ++ rest)) =
        some (some t.kind, t.text.toList.length) := by
  induction ts generalizing offset s with
  | nil => exact List.forall_mem_nil _
  | cons t ts ih =>
    obtain ⟨gap, after, rfl, hgap, hoffset, hmatch, hmore⟩ := h
    intro t' ht'
    cases List.mem_cons.1 ht' with
    | inl heq =>
      rw [heq]
      exact ⟨gap, after, rfl, hoffset, hmatch⟩
    | inr hmem =>
      obtain ⟨before, after', rfl, hoffset', hmatch'⟩ := ih hmore t' hmem
      refine ⟨gap ++ (t.text.toList ++ before), after', ?_, ?_, hmatch'⟩
      · simp only [List.append_assoc]
      · rw [hoffset', hoffset, byteLength_append, byteLength_append]
        omega

theorem LaidOut.pairwise (h : g.LaidOut rest offset ts s) :
    ts.Pairwise fun t t' => t.offset + byteLength t.text.toList ≤ t'.offset := by
  induction ts generalizing offset s with
  | nil => exact .nil
  | cons t ts ih =>
    obtain ⟨gap, after, rfl, hgap, hoffset, hmatch, hmore⟩ := h
    refine List.pairwise_cons.2 ⟨fun t' ht' => ?_, ih hmore⟩
    obtain ⟨before, -, -, hoffset', -⟩ := hmore.exists_of_mem t' ht'
    omega

end Layout

/-- Nothing of the text in front of `rest` is lost: it lies in the tokens or between them, and the
tokens are slices of it, none of them empty and each one behind the one before. -/
structure Lossless (g : Grammar) (s rest : List Char) (ts : List Token) : Prop where
  laidOut : g.LaidOut rest 0 ts s
  kinds : ∀ t ∈ ts, t.kind ≠ .finish
  texts : ∀ t ∈ ts, t.text ≠ ""
  slices : ∀ t ∈ ts, takeBytes (byteLength t.text.toList) (dropBytes t.offset s) = t.text.toList
  apart : ts.Pairwise fun t t' => t.offset + byteLength t.text.toList ≤ t'.offset
  inside : ∀ t ∈ ts, t.offset + byteLength t.text.toList ≤ byteLength s

theorem Cuts.lossless {g : Grammar} {s rest : List Char} {ts : List Token}
    (h : g.Cuts rest 0 s ts) : g.Lossless s rest ts := by
  have hfound := h.laidOut.exists_of_mem
  refine ⟨h.laidOut, fun t ht hkind => ?_, fun t ht htext => ?_, fun t ht => ?_,
    h.laidOut.pairwise, fun t ht => ?_⟩
  · obtain ⟨-, after, -, -, hmatch⟩ := hfound t ht
    have hscan := scan_of_firstMatch? hmatch
    rw [hkind] at hscan
    cases hscan
  · obtain ⟨-, after, -, -, hmatch⟩ := hfound t ht
    obtain ⟨w, more, -, hne, hlength⟩ := exists_of_firstMatch? hmatch
    rw [htext] at hlength
    exact hne (List.length_eq_zero_iff.1 hlength)
  · obtain ⟨before, after, rfl, hoffset, -⟩ := hfound t ht
    rw [hoffset, Nat.zero_add, dropBytes_append, takeBytes_append]
  · obtain ⟨before, after, rfl, hoffset, -⟩ := hfound t ht
    rw [hoffset, byteLength_append, byteLength_append]
    omega

/-- The lexer comes to an end on every text, and loses nothing. Either all of the text is cut into
tokens and gaps, and a last token marks its end; or a character that is no blank stands where no
rule matches, and the text in front of it is cut in the same way. -/
theorem tokenize_lossless (g : Grammar) (input : String) :
    match tokenize g input with
    | .ok ts => ∃ found, ts = found ++ [Token.finish (byteLength input.toList)] ∧
        g.Lossless input.toList [] found
    | .error e => ∃ before c after found, input.toList = before ++ c :: after ∧
        isBlank c = false ∧ (∀ rule ∈ g.rules, rule.scan (c :: after) = none) ∧
        e = ⟨.unrecognized c, byteLength before, String.ofList (c :: after)⟩ ∧
        g.Lossless before (c :: after) found := by
  have hended := g.ended_tokens input.toList
  unfold tokenize
  cases hresult : g.tokens input.toList with
  | ok ts =>
    rw [hresult] at hended
    exact ⟨ts, rfl, Cuts.lossless hended⟩
  | error misfit =>
    rw [hresult] at hended
    obtain ⟨before, c, after, ts, hinput, hcuts, hc, hnone, hmisfit⟩ := hended
    refine ⟨before, c, after, ts, hinput, hc, firstMatch?_eq_none_iff.1 hnone, ?_, hcuts.lossless⟩
    rw [hmisfit, Nat.zero_add, hinput, Misfit.locate_append]

end Grammar
end Spreadsheet
