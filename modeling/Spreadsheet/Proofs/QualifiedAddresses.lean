import Spreadsheet.Formula.Expression
import Spreadsheet.Proofs.TokenTexts

/-!
Addresses behind the name of a sheet. Whatever the name is, what stands behind it is read as it is
read alone, but for one thing: a `:` anywhere in the text asks for a second corner, and so a name
with a `:` in it can stand in front of ranges only. The tokens that are found as addresses are
those that are read as ones when their rows and columns exist, with the same exception.
-/
namespace Spreadsheet

open Text

namespace Address

/-- Behind a quoted name an address is read as it is alone; a `:` in the name asks for a range. -/
theorem readChars_quoted {name s : List Char} (hne : name ≠ []) (hmark : '!' ∉ s)
    (htrim : trim s = s) {a : Address} :
    readChars (enclose '\'' name ++ '!' :: s) = some a ↔
      ∃ b, readChars s = some b ∧ (':' ∈ name → b.isRange = true) ∧
        a = { b with sheet := some (String.ofList name) } := by
  have htext : enclose '\'' name ++ '!' :: s = (SheetText.quoted name hne).chars ++ s := by
    rw [SheetText.chars, List.append_assoc]
    rfl
  have htrims := (SheetText.quoted name hne).trim_append htrim
  have hcolon : (enclose '\'' name ++ '!' :: s).contains ':' = true ↔
      ':' ∈ name ∨ s.contains ':' = true := by
    simp [enclose, mem_double_iff]
  rw [readChars_eq, readChars_eq, htrim, readSheet_none hmark, htext, htrims, ← htext,
    readSheet_enclose hne, Option.map_eq_some_iff]
  dsimp only
  constructor
  · rintro ⟨⟨first, last⟩, hcorners, rfl⟩
    obtain ⟨hread, hfirst, hlast⟩ := readCorners_eq_some_iff.1 hcorners
    have halone : readCorners (s.contains ':') s = some (first, last) :=
      readCorners_eq_some_iff.2 ⟨hread, hfirst, fun h => hlast (hcolon.2 (.inr h))⟩
    rw [halone]
    refine ⟨⟨none, first, last⟩, rfl, fun h => ?_, rfl⟩
    show (!last.isEmpty) = true
    rw [hlast (hcolon.2 (.inl h))]
    rfl
  · rintro ⟨b, halone, hrange, rfl⟩
    obtain ⟨⟨first, last⟩, hcorners, rfl⟩ := Option.map_eq_some_iff.1 halone
    obtain ⟨hread, hfirst, hlast⟩ := readCorners_eq_some_iff.1 hcorners
    refine ⟨(first, last), readCorners_eq_some_iff.2 ⟨hread, hfirst, fun h => ?_⟩, rfl⟩
    rcases hcolon.1 h with hname | halone
    · have hsome : (!last.isEmpty) = true := hrange hname
      simpa using hsome
    · exact hlast halone

end Address

namespace AddressText

/-- Whether the letters and digits of all corners name columns and rows. -/
def Fits (t : AddressText) : Prop :=
  t.first.Fits ∧ ∀ corner ∈ t.last, corner.Fits

theorem exists_last?_iff (t : AddressText) :
    (∃ c, t.last? = some c) ↔ ∀ corner ∈ t.last, corner.Fits := by
  unfold last?
  cases t.last with
  | none =>
    refine ⟨fun _ corner hnone => ?_, fun _ => ⟨{}, rfl⟩⟩
    cases hnone
  | some last =>
    rw [last.exists_corner?_iff]
    constructor
    · rintro hfits corner ⟨⟩
      exact hfits
    · intro hfits
      exact hfits last rfl

theorem exists_readChars_iff (t : AddressText) :
    (∃ a, Address.readChars t.chars = some a) ↔
      t.Fits ∧ ∀ name ∈ t.sheet.sheet, ':' ∈ name.toList → t.last.isSome = true := by
  rw [Fits, ← t.first.exists_corner?_iff, ← t.exists_last?_iff]
  constructor
  · rintro ⟨a, ha⟩
    obtain ⟨hsheet, hfirst, hlast, hcolon⟩ := t.readChars_eq_some_iff.1 ha
    rw [hsheet] at hcolon
    exact ⟨⟨⟨_, hfirst⟩, _, hlast⟩, hcolon⟩
  · rintro ⟨⟨⟨first, hfirst⟩, last, hlast⟩, hcolon⟩
    exact ⟨⟨t.sheet.sheet, first, last⟩,
      t.readChars_eq_some_iff.2 ⟨rfl, hfirst, hlast, hcolon⟩⟩

end AddressText

theorem Grammar.exists_of_address_token {g : Grammar} {input : String} {ts : List Token}
    (h : tokenize g input = .ok ts) {t : Token} (ht : t ∈ ts) (hkind : t.kind = .address) :
    ∃ w : AddressText, w.IsMarked ∧ w.chars = t.text.toList := by
  unfold tokenize at h
  split at h
  next tokens htokens =>
    cases h
    cases List.mem_append.1 ht with
    | inl hmem =>
      obtain ⟨w, hmarked, -, hchars⟩ := text_of_mem_tokensFrom htokens hmem
        (by rw [hkind]; exact TokenRule.takes_address)
      exact ⟨w, hmarked, hchars.symm⟩
    | inr hfinish =>
      rw [List.mem_singleton.1 hfinish] at hkind
      cases hkind
  next => cases h

namespace Address

theorem tokenize_of_readsWhole {g : Grammar} {kind : TokenKind} {text : String}
    (h : g.ReadsWhole kind text.toList) :
    tokenize g text =
      .ok [{ kind := kind, text := text, offset := 0 }, Grammar.finish text.toList] := by
  unfold Grammar.ReadsWhole at h
  rw [tokenize, h, String.ofList_toList]
  rfl

theorem exists_cell_leaf_iff {t : Token} (hkind : t.kind = .address) :
    (∃ a, Expression.leaf? t = some (.ok (.cell a))) ↔ ∃ a, read t.text = some a := by
  unfold Expression.leaf? read
  rw [hkind]
  dsimp only
  cases readChars t.text.toList with
  | none => simp
  | some a => simp

/-- A sheet in front of an address changes nothing but its sheet, with one exception, and it is the
same for the address tokens of every text: a name with a `:` in it makes anything but a range
unreadable. -/
theorem read_qualified (name text : String) (g : Grammar) (input : String) (ts : List Token) :
    (name ≠ "" → '!' ∉ text.toList → trim text.toList = text.toList →
      ∀ a, read (String.ofList (enclose '\'' name.toList ++ '!' :: text.toList)) = some a ↔
        ∃ b, read text = some b ∧ (':' ∈ name.toList → b.isRange = true) ∧
          a = { b with sheet := some name }) ∧
      (tokenize g input = .ok ts → ∀ t ∈ ts, t.kind = .address →
        ∃ w : AddressText, w.chars = t.text.toList ∧
          ((∃ a, Expression.leaf? t = some (.ok (.cell a))) ↔
            w.Fits ∧ ∀ name ∈ w.sheet.sheet, ':' ∈ name.toList → w.last.isSome = true)) := by
  constructor
  · intro hname hmark htrim a
    have hne : name.toList ≠ [] := fun heq => hname (String.toList_eq_nil_iff.1 heq)
    unfold read
    rw [String.toList_ofList, readChars_quoted hne hmark htrim, String.ofList_toList]
  · intro htokens t ht hkind
    obtain ⟨w, -, hchars⟩ := Grammar.exists_of_address_token htokens ht hkind
    refine ⟨w, hchars, ?_⟩
    rw [exists_cell_leaf_iff hkind, ← w.exists_readChars_iff, hchars]
    rfl

/-- The name of a sheet may have marks, quotes and digits in it. -/
theorem read_qualified_marks :
    let corners : Address := ⟨none, ⟨some 1, some 1, true, true⟩, ⟨some 2, some 2, false, false⟩⟩
    let t : Token := { kind := .address, text := "'it''s $9!a: b'!$b$2:c3", offset := 0 }
    read "$b$2:c3" = some corners ∧ read t.text = some { corners with sheet := some "it's $9!a: b" } ∧
      tokenize .formula t.text = .ok [t, Token.finish 23] ∧
      ∃ w : AddressText, w.chars = t.text.toList ∧ w.Fits := by
  intro corners t
  obtain ⟨hqualified, haddresses⟩ :=
    read_qualified "it's $9!a: b" "$b$2:c3" .formula t.text [t, Token.finish 23]
  have halone : read "$b$2:c3" = some corners := by decide +kernel
  have hquoted : read t.text = some { corners with sheet := some "it's $9!a: b" } :=
    (hqualified (by decide) (by decide) (by decide) _).2 ⟨corners, halone, fun _ => rfl, rfl⟩
  have hwhole : Grammar.formula.ReadsWhole .address t.text.toList :=
    Grammar.readsWhole_of_firstMatch? (by decide +kernel) (by decide +kernel)
  have hfinish : Grammar.finish t.text.toList = Token.finish 23 := by decide +kernel
  have htokens : tokenize .formula t.text = .ok [t, Token.finish 23] := by
    rw [tokenize_of_readsWhole hwhole, hfinish]
  obtain ⟨w, hchars, hreads⟩ := haddresses htokens t List.mem_cons_self rfl
  have hleaf := (exists_cell_leaf_iff (t := t) rfl).2 ⟨_, hquoted⟩
  exact ⟨halone, hquoted, htokens, w, hchars, (hreads.1 hleaf).1⟩

/-- A cell on a sheet with a `:` in its name is an address token, but it cannot be read. -/
theorem read_colonInSheet :
    read "A1" = some (.cell 0 0) ∧ read "'a:b'!A1" = none ∧
      tokenize .formula "'a:b'!A1" =
        .ok [{ kind := .address, text := "'a:b'!A1", offset := 0 }, Token.finish 8] ∧
      Expression.leaf? { kind := .address, text := "'a:b'!A1", offset := 0 } =
        some (.error { fault := .invalidAddress "'a:b'!A1", offset := 0 }) ∧
      read "'a:b'!A1:A1" =
        some ⟨some "a:b", ⟨some 0, some 0, false, false⟩, ⟨some 0, some 0, false, false⟩⟩ := by
  have hnone : readChars "'a:b'!A1".toList = none := by decide +kernel
  have hwhole : Grammar.formula.ReadsWhole .address "'a:b'!A1".toList :=
    Grammar.readsWhole_of_firstMatch? (by decide +kernel) (by decide +kernel)
  refine ⟨by decide +kernel, hnone, tokenize_of_readsWhole hwhole, ?_, by decide +kernel⟩
  simp only [Expression.leaf?, hnone]

end Address
end Spreadsheet
