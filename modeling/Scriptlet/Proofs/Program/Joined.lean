import Mathlib
import Scriptlet.Proofs.Program.Echo

/-!
# Programs one behind the other

The tokens of one program followed by those of another are read as the statements of
both, if the two do not run into each other where they meet (`Program.ofTokens_append`).
What follows a program can go on its last statement.  It can also change what a
lookahead finds, however far in front, and inside every body.

The grammar of the first program says which terminals follow each of its statements.
Terminals are put behind these (`Reads.before`), under a condition on the place where
they are put (`Meets`).  For the lookaheads the induction carries on what is known of
the terminals between a statement and that place (`Settled`).
-/

namespace Scriptlet

open Token (Kind)
open Scriptlet.Parser (Stands)
open Detection (opensBody opensDeclaration hasShape isAsyncWord)

/-! ## Closed parentheses -/

/-- If a parenthesis is closed somewhere, one is opened somewhere. -/
def Matched (ts : List Terminal) : Prop := (∃ t ∈ ts, t.kind = .closeParen) → HasParen ts

namespace Matched

variable {t : Terminal} {ts us : List Terminal}

theorem nil : Matched [] := by simp [Matched]

theorem cons (ht : t.kind ≠ .closeParen) (h : Matched ts) : Matched (t :: ts) := by
  rintro ⟨u, hu, hclose⟩
  rcases List.mem_cons.1 hu with rfl | hu
  · exact absurd hclose ht
  · exact (hasParen_cons t ts).2 (.inr (h ⟨u, hu, hclose⟩))

theorem append (hts : Matched ts) (hus : Matched us) : Matched (ts ++ us) := by
  rintro ⟨t, ht, hclose⟩
  rw [hasParen_append]
  exact (List.mem_append.1 ht).imp (fun ht => hts ⟨t, ht, hclose⟩) fun ht => hus ⟨t, ht, hclose⟩

theorem of_hasParen (h : HasParen ts) : Matched ts := fun _ => h

/-- A `)` before a brace has a `(`. -/
theorem hasParen_of_opensBody (h : Matched ts) (hbody : opensBody ts) : HasParen ts := by
  refine h ?_
  clear h
  induction ts with
  | nil => cases hbody
  | cons t ts ih =>
    rw [Detection.opensBody_cons, Bool.or_eq_true, Bool.and_eq_true] at hbody
    rcases hbody with ⟨hclose, _⟩ | hbody
    · exact ⟨t, .head ts, of_decide_eq_true hclose⟩
    · obtain ⟨u, hu, hclose⟩ := ih hbody
      exact ⟨u, .tail t hu, hclose⟩

end Matched

theorem Derives.matched {phrase : Phrase} {ts : List Terminal} (h : Derives phrase ts) :
    Matched ts := by
  induction h with
  | name ht | string ht | shorthand ht => exact .cons (by simp [ht]) .nil
  | number ht => exact .cons (by simp [ht]) .nil
  | group hl => exact .of_hasParen (by simp [hl])
  | loosen _ _ ih | lastArgument _ ih | lastProperty _ ih => exact ih
  | dot _ hd _ iho ihn => exact iho.append (.cons (by simp [hd]) ihn)
  | index _ hl _ hr iho ihp =>
    exact iho.append (.cons (by simp [hl]) (ihp.append (.cons (by simp [hr]) .nil)))
  | apply _ hl => exact .of_hasParen (by simp [hl])
  | @binary _ op _ _ _ _ _ _ _ ht _ ihl ihr =>
    exact ihl.append (.cons (by rw [ht]; cases op <;> decide) ihr)
  | object hl _ hr ih => exact .cons (by simp [hl]) (ih.append (.cons (by simp [hr]) .nil))
  | assign _ ht _ iht ihv => exact iht.append (.cons (by simp [ht]) ihv)
  | noArguments | noProperties => exact .nil
  | moreArguments _ ht _ ihe ihes => exact ihe.append (.cons (by simp [ht]) ihes)
  | entry ht hcolon _ ih => exact .cons (by simp [ht]) (.cons (by simp [hcolon]) ih)
  | moreProperties _ ht _ ihp ihps => exact ihp.append (.cons (by simp [ht]) ihps)

theorem Opens.hasParen {head : Parser.Heading} {ts : List Terminal} (h : Opens head ts) :
    HasParen ts := by
  cases h with
  | plain _ _ hl => simp [hl]
  | async _ _ hl => simp [hl]

theorem Reads.matched {mode : Detection} {part : Part} {ts rest : List Terminal}
    (h : Reads mode part ts rest) : Matched ts := by
  induction h with
  | binding hw ht hq he =>
    refine .cons ?_ (.cons (by simp [ht]) (.cons (by simp [hq]) he.derives.matched))
    rcases hw with hw | hw <;> simp [hw]
  | bareBinding hw ht => exact .cons (by simp [hw]) (.cons (by simp [ht]) .nil)
  | function hopens => exact .of_hasParen ((hasParen_append _ _).2 (.inl hopens.hasParen))
  | expression he => exact he.derives.matched
  | nil => exact .nil
  | cons _ _ ihs ihss => exact ihs.append ihss

/-! ## Where two programs meet -/

/-- The terminals `more` may be put behind the terminals `front`. -/
structure Meets (mode : Detection) (front more : List Terminal) : Prop where
  /-- They start as a statement does, or there are none. -/
  follows : headKind more ∈ followingKinds
  /-- They do not start with a parenthesis. -/
  paren : headKind more ≠ .openParen
  /-- They do not start with a brace behind a closed parenthesis. -/
  curly : lastKind front = .closeParen → headKind more ≠ .openCurly
  /-- In the anchored way they do not stand behind the word `async`. -/
  modifier : mode = .anchored → ∀ t ∈ front.getLast?, isAsyncWord t = false
  /-- The forward scan finds no body in them. -/
  body : mode = .forwardScan → opensBody more = false

/-- What is known of the terminals `rest` behind a statement, where `more` is put
behind them. -/
structure Settled (rest more : List Terminal) : Prop where
  /-- They do not look like a declaration if they did not before. -/
  declaration : rest ≠ [] → opensDeclaration (rest ++ more) → opensDeclaration rest
  /-- If a parenthesis is closed in them, one is opened. -/
  matched : Matched rest

theorem Settled.nil (more : List Terminal) : Settled [] more :=
  ⟨fun hne => absurd rfl hne, .nil⟩

theorem Meets.suffix {mode : Detection} {front back more : List Terminal}
    (h : Meets mode (front ++ back) more) : Meets mode back more := by
  cases back with
  | nil => exact ⟨h.follows, h.paren, by simp [lastKind], by simp, h.body⟩
  | cons t back =>
    refine ⟨h.follows, h.paren, fun hlast => h.curly ?_,
      fun hmode u hu => h.modifier hmode u ?_, h.body⟩
    · rw [lastKind_append_cons, hlast]
    · rw [List.getLast?_append_of_ne_nil _ (List.cons_ne_nil t back)]
      exact hu

namespace Parser.Stands

variable {mode : Detection} {e : Expr} {ts rest more : List Terminal}

/-- An expression still stands when more is put behind what follows it. -/
theorem before (h : Stands e ts rest) (hmeets : Meets mode (ts ++ rest) more) :
    Stands e ts (rest ++ more) := by
  cases rest with
  | nil =>
    exact stands_of_following h.derives (fun hparen => absurd hparen hmeets.paren) hmeets.follows
  | cons t rest =>
    cases h with
    | free he hstop => exact .free he hstop
    | bare he hstop => exact .bare he hstop

/-- An expression does not come to look like a declaration when more is put behind what
follows it. -/
theorem opensDeclaration_before (h : Stands e ts rest) (hmeets : Meets mode (ts ++ rest) more)
    (hopens : opensDeclaration (ts ++ (rest ++ more))) : opensDeclaration (ts ++ rest) := by
  have hhead : headKind ts ≠ .openParen := by
    have hname := Detection.headKind_of_opensDeclaration hopens
    rw [headKind_append _ h.derives.ne_nil] at hname
    rw [hname]
    decide
  rcases h.derives.of_opensDeclaration hopens with ⟨⟨name, rfl⟩, hparen⟩ | ⟨⟨name, es, rfl⟩, hcurly⟩
  · cases rest with
    | nil => exact absurd hparen hmeets.paren
    | cons t rest => cases h.bare_of_openParen hparen
  · cases rest with
    | nil =>
      obtain ⟨fs, l, as, r, rfl, _, hr, _, _⟩ := h.derives.call_cases.resolve_left hhead
      have hlast : lastKind (fs ++ l :: (as ++ [r]) ++ []) = .closeParen := by
        rw [List.append_nil, lastKind_append_cons, lastKind_cons_concat, hr]
      exact absurd hcurly (hmeets.curly hlast)
    | cons t rest => exact h.derives.opensDeclaration_of_call hhead hcurly

/-- Nor does it come to be taken for a declaration. -/
theorem recognises_before (h : Stands e ts rest) (hmeets : Meets mode (ts ++ rest) more)
    (hsettled : Settled rest more) (hmode : mode.recognises (ts ++ (rest ++ more))) :
    mode.recognises (ts ++ rest) := by
  cases mode with
  | forwardScan =>
    obtain ⟨hname, _, hbody⟩ := Detection.scansForward_iff.1 hmode
    rw [← List.append_assoc, Detection.opensBody_append, hmeets.body rfl, Bool.or_false,
      Bool.or_eq_true, Bool.and_eq_true, decide_eq_true_eq, decide_eq_true_eq] at hbody
    replace hbody := hbody.resolve_right fun hmeet => hmeets.curly hmeet.1 hmeet.2
    have hparen := (h.derives.matched.append hsettled.matched).hasParen_of_opensBody hbody
    refine Detection.scansForward_iff.2 ⟨?_, hparen, hbody⟩
    rw [headKind_append _ h.derives.ne_nil] at hname ⊢
    exact hname
  | anchored =>
    obtain ⟨t, ts, rfl⟩ := List.exists_cons_of_ne_nil h.derives.ne_nil
    rw [Detection.recognises, hasShape, List.cons_append, Detection.afterAsync] at hmode ⊢
    split at hmode
    next hasync =>
      rw [if_pos hasync]
      -- The modifier is all of the expression, and a declaration follows it.
      obtain ⟨rfl, _⟩ :=
        h.derives.name_before_declaration (Detection.kind_of_isAsyncWord hasync) hmode
      refine hsettled.declaration ?_ hmode
      rintro rfl
      rw [hmeets.modifier rfl t rfl] at hasync
      cases hasync
    next hother =>
      rw [if_neg hother]
      exact h.opensDeclaration_before hmeets hmode

end Parser.Stands

namespace Reads

variable {mode : Detection} {s : Stmt} {ss : List Stmt} {ts us rest more : List Terminal}

theorem opensDeclaration_before (h : Reads mode (.statement s) ts rest)
    (hmeets : Meets mode (ts ++ rest) more) (hopens : opensDeclaration (ts ++ (rest ++ more))) :
    opensDeclaration (ts ++ rest) := by
  cases h with
  | binding hw =>
    have hhead := Detection.headKind_of_opensDeclaration hopens
    rcases hw with hw | hw <;> cases hw.symm.trans hhead
  | bareBinding hw => cases hw.symm.trans (Detection.headKind_of_opensDeclaration hopens)
  | function hopens' =>
    cases hopens' with
    | plain _ ht hl hes _ hr hb =>
      rw [List.append_assoc]
      exact Opens.opensDeclaration ht hl hes hr hb _
    | async _ ht => simp [opensDeclaration, ht] at hopens
  | expression he => exact he.opensDeclaration_before hmeets hopens

/-- The terminals of a body are settled, with what was settled behind them. -/
theorem settled (h : Reads mode (.body ss) us rest) (hmeets : Meets mode (us ++ rest) more)
    (hsettled : Settled rest more) : Settled (us ++ rest) more := by
  refine ⟨fun hne hopens => ?_, h.matched.append hsettled.matched⟩
  cases h with
  | nil => exact hsettled.declaration hne hopens
  | cons hs _ =>
    rw [List.append_assoc] at hmeets ⊢
    rw [List.append_assoc, List.append_assoc, ← List.append_assoc _ rest] at hopens
    exact hs.opensDeclaration_before hmeets hopens

/-- Statements can be put behind those of a body that they follow. -/
theorem append_body {ss' : List Stmt} (h : Reads mode (.body ss) ts (us ++ rest))
    (h' : Reads mode (.body ss') us rest) : Reads mode (.body (ss ++ ss')) (ts ++ us) rest := by
  induction ss generalizing ts with
  | nil =>
    cases h
    exact h'
  | cons s ss ih =>
    cases h with
    | cons hs hss =>
      rw [List.append_assoc]
      rw [← List.append_assoc] at hs
      exact .cons hs (ih hss)

end Reads

/-- The last statement of a part. -/
def Part.last? : Part → Option Stmt
  | .statement s => some s
  | .body ss => ss.getLast?

/-- What a part consists of remains so when more is put behind what follows it, unless
it ends in a binding that has no value because the source ends there. -/
theorem Reads.before {mode : Detection} {part : Part} {ts rest more : List Terminal}
    (h : Reads mode part ts rest) (hmeets : Meets mode (ts ++ rest) more)
    (hsettled : Settled rest more)
    (hvalue : rest = [] → ∀ name constant, part.last? ≠ some (.binding name constant none)) :
    Reads mode part ts (rest ++ more) := by
  induction h with
  | @binding w t q e ts rest hw ht hq he =>
    have hinner : Meets mode ([w, t, q] ++ (ts ++ rest)) more := hmeets
    exact .binding hw ht hq (he.before hinner.suffix)
  | @bareBinding w t => exact absurd rfl (hvalue rfl t.value false)
  | @function close head ss hs bs rest hopens hbody hclose ih =>
    have hinner : Meets mode (bs ++ close :: rest) more := by
      rw [List.append_assoc, List.append_assoc] at hmeets
      exact hmeets.suffix
    have hbehind : Settled (close :: rest) more := by
      refine ⟨fun _ hopens => ?_, .cons (by simp [hclose]) hsettled.matched⟩
      cases hclose.symm.trans (Detection.headKind_of_opensDeclaration hopens)
    exact .function hopens (ih hinner hbehind fun hnil => absurd hnil (List.cons_ne_nil _ _)) hclose
  | expression he hmode =>
    refine .expression (he.before hmeets) ?_
    rw [Bool.eq_false_iff]
    intro hrecognises
    rw [he.recognises_before hmeets hsettled hrecognises] at hmode
    cases hmode
  | nil => exact .nil
  | @cons s ss ts us rest hs hss ihs ihss =>
    rw [List.append_assoc] at hmeets
    have hlater := hss.settled hmeets.suffix hsettled
    refine .cons ?_ (ihss hmeets.suffix hsettled ?_)
    · rw [← List.append_assoc]
      refine ihs hmeets hlater ?_
      intro hnil name constant hlast
      obtain ⟨hempty, hrest⟩ := List.append_eq_nil_iff.1 hnil
      -- Nothing follows the statement, so it is the last one.
      refine hvalue hrest name constant ?_
      rw [hss.eq_nil hempty]
      exact hlast
    · intro hnil name constant hlast
      cases ss with
      | nil => cases hlast
      | cons s' ss => exact hvalue hnil name constant hlast

/-! ## Programs -/

/-- A `)` stands right before a `{` somewhere. -/
theorem Detection.opensBody_iff {ts : List Terminal} :
    opensBody ts ↔ ∃ (front : List Terminal) (t u : Terminal) (back : List Terminal),
      ts = front ++ t :: u :: back ∧ t.kind = .closeParen ∧ u.kind = .openCurly := by
  induction ts with
  | nil => simp [opensBody]
  | cons s ts ih =>
    rw [opensBody_cons, Bool.or_eq_true, Bool.and_eq_true, decide_eq_true_eq, decide_eq_true_eq, ih]
    constructor
    · rintro (⟨hclose, hcurly⟩ | ⟨front, t, u, back, rfl, hclose, hcurly⟩)
      · cases ts with
        | nil => cases hcurly
        | cons u back => exact ⟨[], s, u, back, rfl, hclose, hcurly⟩
      · exact ⟨s :: front, t, u, back, rfl, hclose, hcurly⟩
    · rintro ⟨front, t, u, back, hsame, hclose, hcurly⟩
      cases front with
      | nil =>
        cases hsame
        exact .inl ⟨hclose, hcurly⟩
      | cons s front =>
        cases hsame
        exact .inr ⟨front, t, u, back, rfl, hclose, hcurly⟩

/-- What is read as a program starts as a statement does, or is empty. -/
theorem Reads.headKind_mem_followingKinds {mode : Detection} {ss : List Stmt} {ts : List Terminal}
    (h : Reads mode (.body ss) ts []) : headKind ts ∈ followingKinds := by
  cases h with
  | nil => decide
  | cons hs =>
    rw [headKind_append _ hs.ne_nil]
    exact .tail _ (.tail _ hs.headKind_mem)

theorem exists_getLast?_of_lastKind {ts : List Terminal} {kind : Kind} (h : lastKind ts = kind)
    (hkind : kind ≠ .endOfInput) : ∃ t ∈ ts.getLast?, t.kind = kind := by
  rcases List.eq_nil_or_concat ts with rfl | ⟨front, t, rfl⟩
  · exact absurd h.symm hkind
  · rw [List.concat_eq_append, lastKind_append_cons] at h
    exact ⟨t, by simp, h⟩

/-- What is said of two token lists where they meet, said of their terminals. -/
theorem Meets.of_cursors {mode : Detection} {c c' : Cursor}
    (hfollows : headKind c'.terminals ∈ followingKinds)
    (hparen : ∀ u ∈ c'.remaining.head?, u.kind ≠ .openParen)
    (hcurly : ∀ t ∈ c.rest.getLast?, ∀ u ∈ c'.remaining.head?,
      t.kind = .closeParen → u.kind ≠ .openCurly)
    (hasync : mode = .anchored → ∀ t ∈ c.rest.getLast?,
      ¬ (t.kind = .identifier ∧ t.value = "async"))
    (hbody : mode = .forwardScan → ∀ (front : List Token) (t u : Token) (back : List Token),
      c'.remaining = front ++ t :: u :: back → t.kind = .closeParen → u.kind ≠ .openCurly) :
    Meets mode c.terminals c'.terminals := by
  rw [Cursor.head?_remaining] at hparen hcurly
  constructor
  case follows => exact hfollows
  case paren =>
    rw [← c'.kind_eq_headKind]
    exact hparen c'.current rfl
  case curly =>
    intro hlast
    obtain ⟨_, hmem, hclose⟩ := exists_getLast?_of_lastKind hlast (by decide)
    rw [Cursor.terminals, List.getLast?_map] at hmem
    obtain ⟨t, ht, rfl⟩ := Option.map_eq_some_iff.1 hmem
    rw [← c'.kind_eq_headKind]
    exact hcurly t ht c'.current rfl hclose
  case modifier =>
    intro hmode _ hmem
    rw [Cursor.terminals, List.getLast?_map] at hmem
    obtain ⟨t, ht, rfl⟩ := Option.map_eq_some_iff.1 hmem
    rw [Bool.eq_false_iff]
    intro hword
    simp only [isAsyncWord, Bool.and_eq_true, decide_eq_true_eq] at hword
    exact hasync hmode t ht hword
  case body =>
    intro hmode
    rw [Bool.eq_false_iff]
    intro hopens
    obtain ⟨_, _, _, _, hsplit, hclose, hcurly⟩ := Detection.opensBody_iff.1 hopens
    obtain ⟨front, others, hrest, rfl, hothers⟩ := List.map_eq_append_iff.1 hsplit
    obtain ⟨t, behind, rfl, rfl, hbehind⟩ := List.map_eq_cons_iff.1 hothers
    obtain ⟨u, back, rfl, rfl, rfl⟩ := List.map_eq_cons_iff.1 hbehind
    refine hbody hmode front t u (back ++ [c'.closing]) ?_ hclose hcurly
    rw [Cursor.remaining, hrest, List.append_assoc]
    rfl

namespace Program

variable {mode : Detection} {tokens others : List Token} {p q : Program}

/-- The tokens of one program followed by those of another are read as the statements of
both.  The first program must not end in a binding without a value.  The second must not
start with a parenthesis, nor with a brace behind a closed parenthesis.  In the anchored
way the first must not end in the word `async`, and for the forward scan the second
must not open a body. -/
theorem ofTokens_append (hp : ofTokens mode tokens = .ok p) (hq : ofTokens mode others = .ok q)
    (hvalue : ∀ name constant, p.body.getLast? ≠ some (.binding name constant none))
    (hparen : ∀ u ∈ others.head?, u.kind ≠ .openParen)
    (hcurly : ∀ t ∈ tokens.dropLast.getLast?, ∀ u ∈ others.head?,
      t.kind = .closeParen → u.kind ≠ .openCurly)
    (hasync : mode = .anchored → ∀ t ∈ tokens.dropLast.getLast?,
      ¬ (t.kind = .identifier ∧ t.value = "async"))
    (hbody : mode = .forwardScan → ∀ (front : List Token) (t u : Token) (back : List Token),
      others = front ++ t :: u :: back → t.kind = .closeParen → u.kind ≠ .openCurly) :
    ofTokens mode (tokens.dropLast ++ others) = .ok ⟨p.body ++ q.body⟩ := by
  obtain ⟨c, hc, hreads⟩ := ofTokens_eq_ok_iff.1 hp
  obtain ⟨c', hc', hreads'⟩ := ofTokens_eq_ok_iff.1 hq
  obtain ⟨both, hboth, hpasses⟩ := Cursor.exists_ofTokens_append c.rest_open hc'
  obtain rfl := Cursor.remaining_of_ofTokens hc
  obtain rfl := Cursor.remaining_of_ofTokens hc'
  rw [Cursor.remaining, List.dropLast_concat] at hcurly hasync ⊢
  have hmeets := Meets.of_cursors hreads'.headKind_mem_followingKinds hparen hcurly hasync hbody
  rw [← List.append_nil c.terminals] at hmeets
  have hfirst := hreads.before hmeets (.nil _) fun _ => hvalue
  rw [List.nil_append] at hfirst
  refine ofTokens_eq_ok_iff.2 ⟨both, hboth, ?_⟩
  rw [hpasses.terminals_eq]
  refine Reads.append_body ?_ hreads'
  rw [List.append_nil]
  exact hfirst

/-- In the anchored way a call comes before a declaration, which it would become itself
before a brace, and the word `async` ends a body.  For the forward scan it can end a
program, even before a call. -/
theorem ofTokens_append_call :
    (∃ tokens others : List Token,
      Token.ofSource "" "f() \x7b async \x7d g(x)" = .ok tokens ∧
        Token.ofSource "" "h() \x7b\x7d let a" = .ok others ∧
        ofTokens .anchored (tokens.dropLast ++ others) = .ok
          ⟨([.function "f" [] false [.expression (.identifier "async")],
              .expression (.call (.identifier "g") [.identifier "x"])] : List Stmt) ++
            [.function "h" [] false [], .binding "a" false none]⟩) ∧
    ∃ tokens others : List Token,
      Token.ofSource "" "f() \x7b\x7d async" = .ok tokens ∧
        Token.ofSource "" "h(y) let a" = .ok others ∧
        ofTokens .forwardScan (tokens.dropLast ++ others) = .ok
          ⟨([.function "f" [] false [], .expression (.identifier "async")] : List Stmt) ++
            [.expression (.call (.identifier "h") [.identifier "y"]),
              .binding "a" false none]⟩ := by
  constructor
  · refine ⟨_, _, by cbv, by cbv, ?_⟩
    refine ofTokens_append (p := ⟨_⟩) (q := ⟨_⟩) (by cbv) (by cbv) ?_ ?_ ?_ ?_ ?_
    · simp
    · rintro _ ⟨⟩
      decide
    · rintro _ ⟨⟩ _ ⟨⟩
      decide
    · rintro _ _ ⟨⟩
      decide
    · intro h
      cases h
  · refine ⟨_, _, by cbv, by cbv, ?_⟩
    refine ofTokens_append (p := ⟨_⟩) (q := ⟨_⟩) (by cbv) (by cbv) ?_ ?_ ?_ ?_ ?_
    · simp
    · rintro _ ⟨⟩
      decide
    · rintro _ ⟨⟩ _ ⟨⟩
      decide
    · intro h
      cases h
    · intro _ front t u back hsplit _ hcurly
      -- No brace opens anything here.
      have hmem : u.kind ∈ (front ++ t :: u :: back).map Token.kind :=
        List.mem_map_of_mem (by simp)
      rw [← hsplit, hcurly] at hmem
      revert hmem
      decide

end Program

end Scriptlet
