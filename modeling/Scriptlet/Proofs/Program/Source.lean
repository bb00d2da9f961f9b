import Scriptlet.Proofs.Program.Complete
import Scriptlet.Proofs.Program.Terminals

/-!
# Programs that come from a source

A source gives its programs names and numbers that it can spell.  So a program
that was read from a source can be written, unless a number in it is too large
for a double: that number was read as infinity (`Reads.printable`).
-/

namespace Scriptlet

open Token (Kind)
open Scriptlet.Parser (parameterNames)

/-! ## Finite numbers -/

/-- Whether a double is finite. -/
def Double.isFinite : Double → Bool
  | .finite _ _ => true
  | _ => false

namespace Expr

mutual

/-- Whether every number in an expression is finite. -/
def isFinite : Expr → Bool
  | .assignment target value => isFinite target && isFinite value
  | .binary _ left right => isFinite left && isFinite right
  | .object properties => arePropertiesFinite properties
  | .call callee arguments => isFinite callee && areFinite arguments
  | .member owner property _ => isFinite owner && isFinite property
  | .identifier _ | .string _ => true
  | .number value => value.isFinite

/-- Whether every number in some expressions is finite. -/
def areFinite : List Expr → Bool
  | [] => true
  | e :: es => isFinite e && areFinite es

/-- Whether every number in a property is finite. -/
def isPropertyFinite : Property → Bool
  | .shorthand _ => true
  | .entry _ value => isFinite value

/-- Whether every number in some properties is finite. -/
def arePropertiesFinite : List Property → Bool
  | [] => true
  | p :: ps => isPropertyFinite p && arePropertiesFinite ps

end

end Expr

namespace Stmt

mutual

/-- Whether every number in a statement is finite. -/
def isFinite : Stmt → Bool
  | .binding _ _ value => value.all Expr.isFinite
  | .function _ _ _ body => areFinite body
  | .expression expr => expr.isFinite

/-- Whether every number in some statements is finite. -/
def areFinite : List Stmt → Bool
  | [] => true
  | s :: ss => isFinite s && areFinite ss

end

end Stmt

/-- Whether every number in a program is finite. -/
def Program.isFinite (p : Program) : Bool := Stmt.areFinite p.body

/-! ## Expressions of a source -/

/-- A plain text denotes a decimal without sign. -/
theorem Numeral.Plain.exists_decimal {text : List Char} {d : Double} (h : Plain text)
    (hread : read? text = some d) : ∃ decimal : Decimal, decimal.toDouble false = d := by
  rw [read?_of_isDigit h.head_isDigit, magnitude?] at hread
  have hdecimal : ∃ decimal, decimal? text = some decimal := by
    cases h with
    | whole hne hdigits => exact ⟨_, decimal?_whole hne hdigits⟩
    | pointed hleft _ hdigits => exact ⟨_, decimal?_pointed hleft hdigits⟩
  obtain ⟨decimal, hdecimal⟩ := hdecimal
  rw [hdecimal] at hread
  exact ⟨decimal, Option.some.inj hread⟩

/-- A plain text denotes no negative number. -/
theorem Numeral.Plain.eq_finite {text : List Char} {d : Double} (h : Plain text)
    (hread : read? text = some d) (hfinite : d.isFinite) : ∃ rank, d = .finite false rank := by
  obtain ⟨decimal, rfl⟩ := h.exists_decimal hread
  rw [Decimal.toDouble] at hfinite ⊢
  split at hfinite
  next hlt => exact ⟨⟨decimal.rank, hlt⟩, dif_pos hlt⟩
  next => cases hfinite

/-- A phrase can be written when its numbers are finite. -/
def Phrase.Printable : Phrase → Prop
  | .expr _ e => e.isFinite → e.Printable
  | .arguments es => Expr.areFinite es → ∀ e ∈ es, e.Printable
  | .property p => Expr.isPropertyFinite p →
      Lexeme.IsName p.key ∧ ∀ key value, .entry key value = p → value.Printable
  | .properties ps => Expr.arePropertiesFinite ps →
      (∀ p ∈ ps, Lexeme.IsName p.key) ∧ ∀ key value, .entry key value ∈ ps → value.Printable

theorem Derives.printable {phrase : Phrase} {ts : List Terminal} (h : Derives phrase ts)
    (hlexical : ∀ t ∈ ts, t.Lexical) : phrase.Printable := by
  induction h with
  | @name t ht => exact fun _ => .identifier ((hlexical t (.head _)).name ht)
  | @number t d ht hd =>
    intro hfinite
    obtain ⟨rank, rfl⟩ := ((hlexical t (.head _)).number ht).eq_finite hd hfinite
    exact .number rank
  | string => exact fun _ => .string _
  | group _ _ _ ih =>
    obtain ⟨_, hinner⟩ := List.forall_mem_cons.1 hlexical
    exact ih (List.forall_mem_append.1 hinner).1
  | loosen _ _ ih => exact ih hlexical
  | dot _ _ _ iho ihn =>
    intro hfinite
    obtain ⟨howner, hrest⟩ := List.forall_mem_append.1 hlexical
    have hname := ihn (List.forall_mem_cons.1 hrest).2 rfl
    cases hname with
    | identifier hname => exact .dot (iho howner (Bool.and_eq_true_iff.1 hfinite).1) hname
  | index _ _ _ _ iho ihp =>
    intro hfinite
    obtain ⟨ho, hp⟩ := Bool.and_eq_true_iff.1 hfinite
    obtain ⟨howner, hrest⟩ := List.forall_mem_append.1 hlexical
    obtain ⟨hproperty, _⟩ := List.forall_mem_append.1 (List.forall_mem_cons.1 hrest).2
    exact .index (iho howner ho) (ihp hproperty hp)
  | apply _ _ _ _ ihf ihes =>
    intro hfinite
    obtain ⟨hf, hes⟩ := Bool.and_eq_true_iff.1 hfinite
    obtain ⟨hcallee, hrest⟩ := List.forall_mem_append.1 hlexical
    obtain ⟨harguments, _⟩ := List.forall_mem_append.1 (List.forall_mem_cons.1 hrest).2
    exact .call (ihf hcallee hf) (ihes harguments hes)
  | binary _ _ _ _ ihl ihr =>
    intro hfinite
    obtain ⟨hl, hr⟩ := Bool.and_eq_true_iff.1 hfinite
    obtain ⟨hleft, hrest⟩ := List.forall_mem_append.1 hlexical
    exact .binary (ihl hleft hl) (ihr (List.forall_mem_cons.1 hrest).2 hr)
  | object _ _ _ ih =>
    intro hfinite
    obtain ⟨hproperties, _⟩ := List.forall_mem_append.1 (List.forall_mem_cons.1 hlexical).2
    obtain ⟨hkeys, hvalues⟩ := ih hproperties hfinite
    exact .object hkeys hvalues
  | assign _ _ _ iht ihv =>
    intro hfinite
    obtain ⟨ht, hv⟩ := Bool.and_eq_true_iff.1 hfinite
    obtain ⟨htarget, hrest⟩ := List.forall_mem_append.1 hlexical
    exact .assignment (iht htarget ht) (ihv (List.forall_mem_cons.1 hrest).2 hv)
  | noArguments => exact fun _ => List.forall_mem_nil _
  | lastArgument _ ih =>
    intro hfinite e he
    rw [List.mem_singleton.1 he]
    exact ih hlexical (Bool.and_eq_true_iff.1 hfinite).1
  | moreArguments _ _ _ ihe ihes =>
    intro hfinite
    obtain ⟨hfirst, hothers⟩ := Bool.and_eq_true_iff.1 hfinite
    obtain ⟨hargument, hrest⟩ := List.forall_mem_append.1 hlexical
    exact List.forall_mem_cons.2
      ⟨ihe hargument hfirst, ihes (List.forall_mem_cons.1 hrest).2 hothers⟩
  | @shorthand t ht => exact fun _ => ⟨(hlexical t (.head _)).name ht, by simp⟩
  | @entry t _ _ _ ht _ _ ih =>
    intro hfinite
    refine ⟨(hlexical t (.head _)).name ht, ?_⟩
    intro key value hentry
    cases hentry
    exact ih (fun t ht => hlexical t (.tail _ (.tail _ ht))) hfinite
  | noProperties => exact fun _ => ⟨List.forall_mem_nil _, by simp⟩
  | lastProperty _ ih =>
    intro hfinite
    obtain ⟨hkey, hvalue⟩ := ih hlexical (Bool.and_eq_true_iff.1 hfinite).1
    exact ⟨List.forall_mem_singleton.2 hkey,
      fun key value hentry => hvalue key value (List.mem_singleton.1 hentry)⟩
  | moreProperties _ _ _ ihp ihps =>
    intro hfinite
    obtain ⟨hfirst, hothers⟩ := Bool.and_eq_true_iff.1 hfinite
    obtain ⟨hproperty, hrest⟩ := List.forall_mem_append.1 hlexical
    obtain ⟨hkey, hvalue⟩ := ihp hproperty hfirst
    obtain ⟨hkeys, hvalues⟩ := ihps (List.forall_mem_cons.1 hrest).2 hothers
    refine ⟨List.forall_mem_cons.2 ⟨hkey, hkeys⟩, ?_⟩
    intro key value hentry
    rcases List.mem_cons.1 hentry with hentry | hentry
    · exact hvalue key value hentry
    · exact hvalues key value hentry

/-! ## Programs of a source -/

theorem parameterNames_eq_ok {es : List Expr} {names : List String}
    (h : parameterNames es = .ok names) : es = names.map .identifier := by
  induction es generalizing names with
  | nil =>
    cases h
    rfl
  | cons e es ih =>
    rw [parameterNames] at h
    cases e with
    | identifier name =>
      cases hothers : parameterNames es with
      | error form =>
        rw [hothers] at h
        cases h
      | ok others =>
        rw [hothers] at h
        cases h
        rw [ih hothers]
        rfl
    | _ => cases h

theorem areFinite_identifiers (names : List String) :
    Expr.areFinite (names.map .identifier) = true := by
  induction names with
  | nil => rfl
  | cons name names ih => exact ih

theorem Opens.isName {head : Parser.Heading} {ts : List Terminal} (h : Opens head ts)
    (hlexical : ∀ t ∈ ts, t.Lexical) :
    Lexeme.IsName head.name ∧ ∀ p ∈ head.parameters, Lexeme.IsName p := by
  have hparameters {es : List Expr} {names : List String} {us : List Terminal}
      (hes : Derives (.arguments es) us) (hnames : parameterNames es = .ok names)
      (hus : ∀ t ∈ us, t.Lexical) : ∀ p ∈ names, Lexeme.IsName p := by
    intro p hp
    have hprintable := hes.printable hus
    rw [parameterNames_eq_ok hnames] at hprintable
    cases hprintable (areFinite_identifiers names) (.identifier p) (List.mem_map_of_mem hp) with
    | identifier hname => exact hname
  cases h with
  | @plain t l r b es names us _ ht _ hes hnames =>
    exact ⟨(hlexical t (.head _)).name ht, hparameters hes hnames fun u hu =>
      hlexical u (.tail _ (.tail _ (List.mem_append_left _ hu)))⟩
  | @async a t l r b es names us _ ht _ hes hnames =>
    exact ⟨(hlexical t (.tail _ (.head _))).name ht, hparameters hes hnames fun u hu =>
      hlexical u (.tail _ (.tail _ (.tail _ (List.mem_append_left _ hu))))⟩

/-- A part of a program can be written when its numbers are finite. -/
def Part.Printable : Part → Prop
  | .statement s => s.isFinite → s.Printable
  | .body ss => Stmt.areFinite ss → ∀ s ∈ ss, s.Printable

theorem Reads.printable {mode : Detection} {part : Part} {ts rest : List Terminal}
    (h : Reads mode part ts rest) (hlexical : ∀ t ∈ ts, t.Lexical) : part.Printable := by
  induction h with
  | @binding _ t _ _ _ _ _ ht _ he =>
    intro hfinite
    refine .binding ((hlexical t (.tail _ (.head _))).name ht) ?_
    rintro _ ⟨⟩
    exact he.derives.printable (fun u hu => hlexical u (.tail _ (.tail _ (.tail _ hu)))) hfinite
  | @bareBinding _ t _ ht =>
    exact fun _ => .binding ((hlexical t (.tail _ (.head _))).name ht) (by simp)
  | function hopens _ _ ih =>
    intro hfinite
    obtain ⟨hname, hparameters⟩ := hopens.isName fun t ht => hlexical t (List.mem_append_left _ ht)
    exact .function hname hparameters
      (ih (fun t ht => hlexical t (List.mem_append_right _ (List.mem_append_left _ ht))) hfinite)
  | expression he => exact fun hfinite => .expression (he.derives.printable hlexical hfinite)
  | nil => exact fun _ => List.forall_mem_nil _
  | cons _ _ ihs ihss =>
    intro hfinite s hs
    obtain ⟨hfirst, hothers⟩ := Bool.and_eq_true_iff.1 hfinite
    rcases List.mem_cons.1 hs with rfl | hs
    · exact ihs (fun t ht => hlexical t (List.mem_append_left _ ht)) hfirst
    · exact ihss (fun t ht => hlexical t (List.mem_append_right _ ht)) hothers s hs

namespace Program

/-- The tokens of a source stand before a cursor, and they are lexical. -/
theorem exists_cursor_of_ofSource {file source : String} {tokens : List Token}
    (h : Token.ofSource file source = .ok tokens) :
    ∃ c : Cursor, c.remaining = tokens ∧ ∀ t ∈ c.terminals, t.Lexical := by
  obtain ⟨front, size, rfl, hfront⟩ := Token.lexical_of_ofText h
  refine ⟨⟨front, .endMark file size, fun t ht => (hfront t ht).kind_ne, rfl⟩, rfl, ?_⟩
  intro t ht
  obtain ⟨token, htoken, rfl⟩ := List.mem_map.1 ht
  exact hfront token htoken

/-- A program is read from a source just when the grammar allows it. -/
theorem ofSource_eq_ok_iff {mode : Detection} {file source : String} {c : Cursor} {p : Program}
    (h : Token.ofSource file source = .ok c.remaining) :
    ofSource mode file source = .ok p ↔ Reads mode (.body p.body) c.terminals [] := by
  have hbind : ofSource mode file source = ofTokens mode c.remaining := by
    rw [ofSource, h]
    rfl
  rw [hbind, ofTokens_eq_ok_iff, Cursor.ofTokens_remaining]
  constructor
  · rintro ⟨_, ⟨⟩, hreads⟩
    exact hreads
  · exact fun hreads => ⟨c, rfl, hreads⟩

/-- The tokens of a source that was read make up its program, and they are
lexical. -/
theorem exists_cursor_of_read {mode : Detection} {file source : String} {p : Program}
    (h : ofSource mode file source = .ok p) :
    ∃ c : Cursor, Token.ofSource file source = .ok c.remaining ∧
      Reads mode (.body p.body) c.terminals [] ∧ ∀ t ∈ c.terminals, t.Lexical := by
  cases htokens : Token.ofSource file source with
  | error d =>
    rw [ofSource, htokens] at h
    cases h
  | ok tokens =>
    obtain ⟨c, rfl, hlexical⟩ := exists_cursor_of_ofSource htokens
    exact ⟨c, rfl, (ofSource_eq_ok_iff htokens).1 h, hlexical⟩

/-- Some lexical terminals make up a program that was read. -/
theorem reads_of_ofSource {mode : Detection} {file source : String} {p : Program}
    (h : ofSource mode file source = .ok p) :
    ∃ ts, Reads mode (.body p.body) ts [] ∧ ∀ t ∈ ts, t.Lexical := by
  obtain ⟨c, _, hreads, hlexical⟩ := exists_cursor_of_read h
  exact ⟨c.terminals, hreads, hlexical⟩

end Program

end Scriptlet
