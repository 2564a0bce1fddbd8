import Mathlib.Data.List.Sort
import SchemaDiagram.Block
import SchemaDiagram.Proofs.TokenStream

namespace SchemaDiagram

theorem byteLength_pos {text : List Char} (h : text ≠ []) : 0 < byteLength text := by
  obtain ⟨c, rest, rfl⟩ := List.exists_cons_of_ne_nil h
  have := c.utf8Size_pos
  simp only [byteLength_cons]
  omega

/-- Of two beginnings of one text, the one that takes no more bytes begins the other. -/
theorem prefix_of_byteLength_le {source first second : List Char} (hf : first <+: source)
    (hs : second <+: source) (hle : byteLength first ≤ byteLength second) : first <+: second := by
  rcases List.prefix_or_prefix_of_prefix hf hs with h | ⟨more, rfl⟩
  · exact h
  · cases more with
    | nil => simp
    | cons c more =>
      have := byteLength_pos (List.cons_ne_nil c more)
      rw [byteLength_append] at hle
      omega

theorem IsWord.not_atBoundary_append {word : List Char} (h : IsWord word) (rest : List Char) :
    ¬ AtBoundary (word ++ rest) := by
  obtain ⟨c, tail, rfl, hc, _⟩ := h.exists_cons
  intro hb
  have hno := hb c rfl
  rw [hc] at hno
  cases hno

/-- What a token says of its slice, and of the text before and after the slice. -/
inductive Token.Reads : Token → List Char → List Char → List Char → Prop where
  | word {before slice after : List Char} : IsWord slice → AtBoundary before.reverse →
      AtBoundary after → Reads (.word (String.ofList slice)) before slice after
  | openBrace {before after : List Char} : Reads .openBrace before ['{'] after
  | closeBrace {before after : List Char} : Reads .closeBrace before ['}'] after
  | symbol {c : Char} {before after : List Char} : isBlank c = false → isIdentifierChar c = false →
      c ≠ '{' → c ≠ '}' → Reads (.symbol c) before [c] after

theorem Token.Reads.slice_ne_nil {token : Token} {before slice after : List Char}
    (h : token.Reads before slice after) : slice ≠ [] := by
  cases h with
  | word hw _ _ => exact hw.ne_nil
  | openBrace => exact List.cons_ne_nil _ _
  | closeBrace => exact List.cons_ne_nil _ _
  | symbol => exact List.cons_ne_nil _ _

theorem Token.Reads.ne_endOfText {token : Token} {before slice after : List Char}
    (h : token.Reads before slice after) : token ≠ .endOfText := by
  intro he
  subst he
  cases h

theorem Token.reads_ofMark {c : Char} (hb : isBlank c = false) (hi : isIdentifierChar c = false)
    (before after : List Char) : (ofMark c).Reads before [c] after := by
  unfold ofMark
  split
  next h =>
    subst h
    exact .openBrace
  next hopen =>
    split
    next h =>
      subst h
      exact .closeBrace
    next hclose => exact .symbol hb hi hopen hclose

/-- The span of the token begins and ends between characters of the source, and the token says what
stands there. -/
def PlacedToken.IsReadFrom (t : PlacedToken) (source : List Char) : Prop :=
  ∃ before slice after, source = before ++ (slice ++ after) ∧
    t.start = byteLength before ∧ t.stop = byteLength (before ++ slice) ∧
      t.token.Reads before slice after

theorem PlacedToken.IsReadFrom.start_lt_stop {t : PlacedToken} {source : List Char}
    (h : t.IsReadFrom source) : t.start < t.stop := by
  obtain ⟨before, slice, after, _, hstart, hstop, hreads⟩ := h
  have := byteLength_pos hreads.slice_ne_nil
  rw [hstart, hstop, byteLength_append]
  omega

/-- Whether the byte belongs to the span of the token. -/
def PlacedToken.covers (t : PlacedToken) (byte : Nat) : Bool :=
  decide (t.start ≤ byte ∧ byte < t.stop)

section Spans

theorem tokensFrom_eq (offset : Nat) (text : List Char) :
    tokensFrom offset text = innerTokens offset text ++
      [⟨.endOfText, offset + byteLength text, offset + byteLength text⟩] := by
  induction text using word_induction generalizing offset with
  | nil => simp [tokensFrom_nil]
  | word word rest hw hr ih =>
    rw [tokensFrom_word offset hw hr, innerTokens_word offset hw hr, ih, byteLength_append,
      Nat.add_assoc, List.cons_append]
  | other c rest hi ih =>
    cases hb : isBlank c with
    | true =>
      rw [tokensFrom_blank offset hb, innerTokens_blank offset hb, ih, byteLength_cons, Nat.add_assoc]
    | false =>
      rw [tokensFrom_mark offset hb hi, innerTokens_mark offset hb hi, ih, byteLength_cons,
        Nat.add_assoc, List.cons_append]

/-- No word goes on across the place where the two texts meet. -/
def MeetOutsideWords (before text : List Char) : Prop :=
  AtBoundary before.reverse ∨ AtBoundary text

theorem meetOutsideWords_append_cons {c : Char} (h : isIdentifierChar c = false)
    (before text : List Char) : MeetOutsideWords (before ++ [c]) text := by
  left
  rw [List.reverse_append, List.reverse_singleton]
  exact atBoundary_cons h before.reverse

theorem isReadFrom_of_mem_innerTokens (before text : List Char) (hm : MeetOutsideWords before text) :
    ∀ t ∈ innerTokens (byteLength before) text, t.IsReadFrom (before ++ text) := by
  induction text using word_induction generalizing before with
  | nil => simp
  | word word rest hw hr ih =>
    intro t ht
    rw [innerTokens_word _ hw hr] at ht
    rcases List.mem_cons.mp ht with rfl | ht
    · have hbefore := hm.resolve_right (hw.not_atBoundary_append rest)
      exact ⟨before, word, rest, rfl, rfl, (byteLength_append ..).symm, .word hw hbefore hr⟩
    · rw [← byteLength_append] at ht
      have h := ih (before ++ word) (.inr hr) t ht
      rwa [List.append_assoc] at h
  | other c rest hi ih =>
    intro t ht
    have hbytes : byteLength before + c.utf8Size = byteLength (before ++ [c]) := by simp
    have hrest : t ∈ innerTokens (byteLength before + c.utf8Size) rest →
        t.IsReadFrom (before ++ c :: rest) := by
      intro ht
      rw [hbytes] at ht
      have h := ih (before ++ [c]) (meetOutsideWords_append_cons hi before rest) t ht
      rwa [List.append_assoc] at h
    cases hb : isBlank c with
    | true => exact hrest (by rwa [innerTokens_blank _ hb] at ht)
    | false =>
      rw [innerTokens_mark _ hb hi] at ht
      rcases List.mem_cons.mp ht with rfl | ht
      · exact ⟨before, [c], rest, rfl, rfl, hbytes, Token.reads_ofMark hb hi before rest⟩
      · exact hrest ht

theorem offset_le_start (offset : Nat) (text : List Char) :
    ∀ t ∈ innerTokens offset text, offset ≤ t.start := by
  induction text using word_induction generalizing offset with
  | nil => simp
  | word word rest hw hr ih =>
    intro t ht
    rw [innerTokens_word offset hw hr] at ht
    rcases List.mem_cons.mp ht with rfl | ht
    · exact Nat.le_refl offset
    · have := ih _ t ht
      omega
  | other c rest hi ih =>
    intro t ht
    cases hb : isBlank c with
    | true =>
      rw [innerTokens_blank offset hb] at ht
      have := ih _ t ht
      omega
    | false =>
      rw [innerTokens_mark offset hb hi] at ht
      rcases List.mem_cons.mp ht with rfl | ht
      · exact Nat.le_refl offset
      · have := ih _ t ht
        omega

theorem pairwise_innerTokens (offset : Nat) (text : List Char) :
    (innerTokens offset text).Pairwise fun s t => s.stop ≤ t.start := by
  induction text using word_induction generalizing offset with
  | nil => simp
  | word word rest hw hr ih =>
    rw [innerTokens_word offset hw hr]
    exact List.pairwise_cons.mpr ⟨offset_le_start _ rest, ih _⟩
  | other c rest hi ih =>
    cases hb : isBlank c with
    | true =>
      rw [innerTokens_blank offset hb]
      exact ih _
    | false =>
      rw [innerTokens_mark offset hb hi]
      exact List.pairwise_cons.mpr ⟨offset_le_start _ rest, ih _⟩

theorem countP_covers_of_lt {offset byte : Nat} (h : byte < offset) (text : List Char) :
    (innerTokens offset text).countP (·.covers byte) = 0 := by
  refine List.countP_eq_zero.mpr ?_
  intro t ht
  have := offset_le_start offset text t ht
  simp only [PlacedToken.covers, decide_eq_true_eq]
  omega

/-- A token in front counts for the bytes of its own span, and the others for those after it. -/
theorem countP_covers_cons {token : Token} {offset stop byte : Nat} (hlow : offset ≤ byte)
    (text : List Char) :
    (⟨token, offset, stop⟩ :: innerTokens stop text).countP (·.covers byte) =
      if byte < stop then 1 else (innerTokens stop text).countP (·.covers byte) := by
  rw [List.countP_cons]
  by_cases h : byte < stop
  · rw [countP_covers_of_lt h, if_pos h]
    simp [PlacedToken.covers, hlow, h]
  · rw [if_neg h]
    simp [PlacedToken.covers, h]

theorem countP_covers (offset : Nat) {text before after : List Char} {c : Char}
    (ht : text = before ++ c :: after) {byte : Nat} (hlow : offset + byteLength before ≤ byte)
    (hhigh : byte < offset + byteLength before + c.utf8Size) :
    (innerTokens offset text).countP (·.covers byte) = if isBlank c then 0 else 1 := by
  induction text using word_induction generalizing offset before with
  | nil => simp at ht
  | word word rest hw hr ih =>
    rw [innerTokens_word offset hw hr, countP_covers_cons (by omega)]
    rcases List.append_eq_append_iff.mp ht with ⟨between, hbefore, hrest⟩ | ⟨tail, hword, hrest⟩
    -- The character stands after the word.
    · rw [hbefore, byteLength_append] at hlow hhigh
      rw [if_neg (by omega)]
      exact ih (offset + byteLength word) hrest (by omega) (by omega)
    · cases tail with
      | nil =>
        rw [List.append_nil] at hword
        rw [← hword] at hlow hhigh
        rw [if_neg (by omega)]
        have htail : rest = [] ++ c :: after := hrest.symm
        exact ih (offset + byteLength word) htail (by simpa using hlow) (by simpa using hhigh)
      | cons d tail =>
        obtain ⟨rfl, _⟩ := List.cons.inj hrest
        have hmem : c ∈ word := hword ▸ List.mem_append_right before List.mem_cons_self
        have hblank := isBlank_of_isIdentifierChar (hw.all c hmem)
        have hlength : byteLength word = byteLength before + (c.utf8Size + byteLength tail) := by
          rw [hword, byteLength_append, byteLength_cons]
        rw [if_pos (by omega), hblank]
        rfl
  | other d rest hi ih =>
    cases before with
    | nil =>
      obtain ⟨rfl, rfl⟩ := List.cons.inj ht
      rw [byteLength_nil, Nat.add_zero] at hlow hhigh
      cases hb : isBlank d with
      | true => rw [innerTokens_blank offset hb, countP_covers_of_lt hhigh, if_pos rfl]
      | false => rw [innerTokens_mark offset hb hi, countP_covers_cons hlow, if_pos hhigh]; rfl
    | cons d' before =>
      obtain ⟨rfl, hrest⟩ := List.cons.inj ht
      rw [byteLength_cons] at hlow hhigh
      have hstep := ih (offset + d.utf8Size) hrest (by omega) (by omega)
      cases hb : isBlank d with
      | true => rw [innerTokens_blank offset hb, hstep]
      | false =>
        rw [innerTokens_mark offset hb hi, countP_covers_cons (by omega), if_neg (by omega), hstep]

end Spans

section Determined

variable {token other : Token} {before slice after : List Char}

theorem Token.Reads.word_or_mark (h : token.Reads before slice after) :
    (IsWord slice ∧ AtBoundary before.reverse ∧ AtBoundary after ∧
      token = .word (String.ofList slice)) ∨
    ∃ c, slice = [c] ∧ isBlank c = false ∧ isIdentifierChar c = false ∧ token = ofMark c := by
  cases h with
  | word hw hb ha => exact .inl ⟨hw, hb, ha, rfl⟩
  | openBrace => exact .inr ⟨'{', rfl, by decide, isIdentifierChar_openBrace, rfl⟩
  | closeBrace => exact .inr ⟨'}', rfl, by decide, isIdentifierChar_closeBrace, rfl⟩
  | symbol hb hi hopen hclose => exact .inr ⟨_, rfl, hb, hi, by simp [ofMark, hopen, hclose]⟩

theorem Token.Reads.isBlank_eq_false (h : token.Reads before slice after) {c : Char}
    (hc : c ∈ slice) : isBlank c = false := by
  rcases h.word_or_mark with ⟨hw, _⟩ | ⟨d, rfl, hb, _⟩
  · exact isBlank_of_isIdentifierChar (hw.all c hc)
  · rwa [List.mem_singleton.mp hc]

/-- Two tokens that begin at one place are the same. -/
theorem Token.Reads.eq_of_append_eq {slice' after' : List Char} (h : token.Reads before slice after)
    (h' : other.Reads before slice' after') (he : slice ++ after = slice' ++ after') :
    token = other ∧ slice = slice' := by
  rcases h.word_or_mark with ⟨hw, _, ha, rfl⟩ | ⟨c, rfl, _, hi, rfl⟩
  · rcases h'.word_or_mark with ⟨hw', _, ha', rfl⟩ | ⟨d, rfl, _, hi', rfl⟩
    · have hslice : slice = slice' := by
        rw [← takeWhile_append_of_head? hw.all ha, he, takeWhile_append_of_head? hw'.all ha']
      exact ⟨by rw [hslice], hslice⟩
    · refine absurd ?_ (hw.not_atBoundary_append after)
      rw [he]
      exact atBoundary_cons hi' after'
  · rcases h'.word_or_mark with ⟨hw', _, _, rfl⟩ | ⟨d, rfl, _, _, rfl⟩
    · refine absurd ?_ (hw'.not_atBoundary_append after')
      rw [← he]
      exact atBoundary_cons hi after
    · obtain ⟨rfl, _⟩ := List.cons.inj he
      exact ⟨rfl, rfl⟩

/-- No token begins inside another one. -/
theorem Token.Reads.eq_nil_of_inside {first rest slice' after' : List Char}
    (h : token.Reads before (first ++ rest) after) (h' : other.Reads (before ++ first) slice' after')
    (hrest : rest ≠ []) (he : rest ++ after = slice' ++ after') : first = [] := by
  by_contra hfirst
  rcases h.word_or_mark with ⟨hw, _⟩ | ⟨c, hc, _⟩
  · have hfirst' : IsWord first.reverse := by
      refine ⟨by simpa using hfirst, fun c hc => hw.all c (List.mem_append_left rest ?_)⟩
      exact List.mem_reverse.mp hc
    have hrest' : IsWord rest := ⟨hrest, fun c hc => hw.all c (List.mem_append_right first hc)⟩
    rcases h'.word_or_mark with ⟨_, hb, _⟩ | ⟨d, rfl, _, hi, _⟩
    · rw [List.reverse_append] at hb
      exact hfirst'.not_atBoundary_append before.reverse hb
    · refine hrest'.not_atBoundary_append after ?_
      rw [he]
      exact atBoundary_cons hi after'
  · have hlength := congrArg List.length hc
    have hpos := List.length_pos_of_ne_nil hfirst
    have hpos' := List.length_pos_of_ne_nil hrest
    simp only [List.length_append, List.length_singleton] at hlength
    omega

theorem PlacedToken.IsReadFrom.eq_of_start_le {source : List Char} {t u : PlacedToken}
    (ht : t.IsReadFrom source) (hu : u.IsReadFrom source) (hle : t.start ≤ u.start)
    (hlt : u.start < t.stop) : t = u := by
  obtain ⟨before, slice, after, hs, hstart, hstop, hreads⟩ := ht
  obtain ⟨before', slice', after', hs', hstart', hstop', hreads'⟩ := hu
  rw [hstart, hstart'] at hle
  obtain ⟨first, rfl⟩ := prefix_of_byteLength_le ⟨slice ++ after, hs.symm⟩
    ⟨slice' ++ after', hs'.symm⟩ hle
  rw [hs, List.append_assoc] at hs'
  have htexts := List.append_cancel_left hs'
  rw [hstart', hstop, byteLength_append, byteLength_append] at hlt
  rcases List.append_eq_append_iff.mp htexts with ⟨more, hfirst, _⟩ | ⟨rest, hslice, hrest⟩
  · -- The second token would begin behind the first one.
    rw [hfirst, byteLength_append] at hlt
    omega
  · have hne : rest ≠ [] := by
      rintro rfl
      rw [hslice, List.append_nil] at hlt
      omega
    rw [hslice] at hreads
    obtain rfl := hreads.eq_nil_of_inside hreads' hne hrest.symm
    rw [List.append_nil] at hreads' hstart' hstop'
    rw [List.nil_append] at hreads hslice
    obtain ⟨htoken, hsame⟩ := hreads.eq_of_append_eq hreads' hrest.symm
    cases t
    cases u
    simp_all

/-- Tokens read from one text that share a byte are the same. -/
theorem PlacedToken.IsReadFrom.eq_of_covers {source : List Char} {t u : PlacedToken}
    (ht : t.IsReadFrom source) (hu : u.IsReadFrom source) {byte : Nat} (htb : t.covers byte = true)
    (hub : u.covers byte = true) : t = u := by
  simp only [covers, decide_eq_true_eq] at htb hub
  rcases Nat.le_total t.start u.start with hle | hle
  · exact ht.eq_of_start_le hu hle (by omega)
  · exact (hu.eq_of_start_le ht hle (by omega)).symm

end Determined

/-- The tokens lie in the source in order, and each byte of a character belongs to one of them, or to none
if the character is white space. -/
structure Tiles (source : List Char) (tokens : List PlacedToken) : Prop where
  read : ∀ t ∈ tokens, t.IsReadFrom source
  ordered : tokens.Pairwise fun s t => s.stop ≤ t.start
  covered : ∀ before c after, source = before ++ c :: after →
    ∀ byte, byteLength before ≤ byte → byte < byteLength (before ++ [c]) →
      tokens.countP (·.covers byte) = if isBlank c then 0 else 1

theorem tiles_innerTokens (source : List Char) : Tiles source (innerTokens 0 source) where
  read := isReadFrom_of_mem_innerTokens [] source (.inl atBoundary_nil)
  ordered := pairwise_innerTokens 0 source
  covered := by
    intro before c after hs byte hlow hhigh
    rw [byteLength_append, byteLength_cons, byteLength_nil, Nat.add_zero] at hhigh
    exact countP_covers 0 hs (by omega) (by omega)

theorem Tiles.mem_of_mem {source : List Char} {tokens others : List PlacedToken} (h : Tiles source tokens)
    (h' : Tiles source others) {t : PlacedToken} (ht : t ∈ tokens) : t ∈ others := by
  have hread := h.read t ht
  have hlt := hread.start_lt_stop
  obtain ⟨before, slice, after, hs, hstart, _, hreads⟩ := hread
  obtain ⟨c, rest, rfl⟩ := List.exists_cons_of_ne_nil hreads.slice_ne_nil
  have hpos := c.utf8Size_pos
  have hone := h'.covered before c (rest ++ after) hs t.start (by omega)
    (by rw [hstart, byteLength_append, byteLength_cons]; omega)
  rw [hreads.isBlank_eq_false List.mem_cons_self] at hone
  obtain ⟨u, hu, hub⟩ := List.countP_pos_iff.mp (Nat.lt_of_lt_of_eq Nat.zero_lt_one hone.symm)
  have htb : t.covers t.start = true := by simpa [PlacedToken.covers] using hlt
  rwa [(h.read t ht).eq_of_covers (h'.read u hu) htb hub]

theorem Tiles.pairwise_start_lt {source : List Char} {tokens : List PlacedToken}
    (h : Tiles source tokens) : tokens.Pairwise fun s t => s.start < t.start := by
  refine h.ordered.imp_of_mem ?_
  intro s t hs _ hle
  have := (h.read s hs).start_lt_stop
  omega

/-- A text is tiled in one way only. -/
theorem Tiles.eq {source : List Char} {tokens others : List PlacedToken} (h : Tiles source tokens)
    (h' : Tiles source others) : tokens = others := by
  have : Std.Irrefl fun s t : PlacedToken => s.start < t.start := ⟨fun s => Nat.lt_irrefl s.start⟩
  have : Std.Antisymm fun s t : PlacedToken => s.start < t.start :=
    ⟨fun _ _ hlt hlt' => absurd hlt (Nat.lt_asymm hlt')⟩
  exact h.pairwise_start_lt.eq_of_mem_iff h'.pairwise_start_lt
    fun t => ⟨h.mem_of_mem h', h'.mem_of_mem h⟩

theorem isSome_byteSlice?_between {source : List Char} {s t : PlacedToken} (hs : s.IsReadFrom source)
    (ht : t.IsReadFrom source) (hle : s.stop ≤ t.start) :
    (byteSlice? source s.stop t.start).isSome = true := by
  obtain ⟨before, slice, after, hsource, _, hstop, _⟩ := hs
  obtain ⟨before', slice', after', hsource', hstart, _, _⟩ := ht
  rw [hstop, hstart] at hle ⊢
  have hfirst : before ++ slice <+: source := ⟨after, by rw [hsource, List.append_assoc]⟩
  obtain ⟨between, rfl⟩ := prefix_of_byteLength_le hfirst ⟨slice' ++ after', hsource'.symm⟩ hle
  rw [hsource', byteLength_append (before ++ slice), List.append_assoc (before ++ slice),
    byteSlice?_append]
  rfl

theorem sublist_of_mem_splitWhere {α : Type} {cut : α → Bool} {xs piece : List α}
    (h : piece ∈ splitWhere cut xs) : piece.Sublist xs := by
  induction xs generalizing piece with
  | nil =>
    rw [List.mem_singleton.mp h]
  | cons x rest ih =>
    rw [splitWhere] at h
    split at h
    · rcases List.mem_cons.mp h with rfl | h
      · exact List.nil_sublist _
      · exact (ih h).cons x
    · split at h
      next => simp_all
      next first pieces heq =>
        rw [heq] at ih
        rcases List.mem_cons.mp h with rfl | h
        · exact (ih List.mem_cons_self).cons_cons x
        · exact (ih (List.mem_cons_of_mem first h)).cons x

/-- Where the body of a block begins, there is an opening brace before it. -/
theorem exists_openBrace_of_blockHead? {tokens : List PlacedToken}
    {head : String × Nat × List PlacedToken} (h : blockHead? tokens = some head) :
    ∃ start, List.Sublist (⟨.openBrace, start, head.2.1⟩ :: head.2.2) tokens := by
  induction tokens using blockHead?.induct with
  | case1 name wordStart wordStop start stop rest =>
    cases h
    exact ⟨start, List.sublist_cons_self _ _⟩
  | case2 t rest hno ih =>
    rw [blockHead?.eq_2 _ _ hno] at h
    obtain ⟨start, hs⟩ := ih h
    exact ⟨start, hs.cons t⟩
  | case3 => cases h

theorem Tiles.isSome_byteSlice? {source : List Char} {tokens : List PlacedToken}
    (h : Tiles source tokens) {s t : PlacedToken} (hst : [s, t].Sublist tokens) :
    (byteSlice? source s.stop t.start).isSome = true := by
  have hs := h.read s (hst.mem List.mem_cons_self)
  have ht := h.read t (hst.mem (List.mem_cons_of_mem s List.mem_cons_self))
  have hle := (List.pairwise_cons.mp (h.ordered.sublist hst)).1 t List.mem_cons_self
  exact isSome_byteSlice?_between hs ht hle

/-- Each text is tiled by its tokens, with its end as the last one, and by no other tokens. What stands
between two of them can be cut out of the text, the body of a block among it. -/
theorem tokenize_tiles (source : String) :
    ∃ tokens, tokenize source = tokens ++
        [⟨.endOfText, byteLength source.toList, byteLength source.toList⟩] ∧
      Tiles source.toList tokens ∧ (∀ others, Tiles source.toList others → others = tokens) ∧
      (∀ t ∈ tokens, t.token ≠ .endOfText ∧ t.start < t.stop) ∧
      (∀ s t, [s, t].Sublist tokens → (byteSlice? source.toList s.stop t.start).isSome = true) ∧
      ∀ chunk ∈ splitWhere PlacedToken.isTableKeyword tokens, ∀ head ∈ blockHead? chunk,
        ∀ close ∈ head.2.2.find? (·.token == .closeBrace),
          (byteSlice? source.toList head.2.1 close.start).isSome = true := by
  have htiles := tiles_innerTokens source.toList
  have hall := tokensFrom_eq 0 source.toList
  rw [Nat.zero_add] at hall
  refine ⟨innerTokens 0 source.toList, hall, htiles, fun others h => h.eq htiles, ?_, ?_, ?_⟩
  · intro t ht
    have hread := htiles.read t ht
    have hlt := hread.start_lt_stop
    obtain ⟨_, _, _, _, _, _, hreads⟩ := hread
    exact ⟨hreads.ne_endOfText, hlt⟩
  · intro s t hst
    exact htiles.isSome_byteSlice? hst
  · intro chunk hchunk head hhead close hclose
    obtain ⟨start, hopen⟩ := exists_openBrace_of_blockHead? hhead
    have hclose' := List.mem_of_find?_eq_some hclose
    have hpair : [⟨.openBrace, start, head.2.1⟩, close].Sublist chunk :=
      ((List.singleton_sublist.mpr hclose').cons_cons _).trans hopen
    exact htiles.isSome_byteSlice? (hpair.trans (sublist_of_mem_splitWhere hchunk))

end SchemaDiagram
