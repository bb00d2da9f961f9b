import Scriptlet.Proofs.Expr.Surface

/-!
# The parts of an expression

`Expr.parts` lists an expression and all the expressions inside it, at every depth.
What the grammar says of one expression by itself is `Expr.StoodIn`: its name, its number
or its keys were among the terminals, and the property of a plain access is a name.  It
says so of every part of an expression that was read (`Derives.stoodIn_of_mem_parts`).
-/

namespace Scriptlet

open Token (Kind)

/-! ## Parts -/

namespace Expr

mutual

/-- An expression and the expressions inside it, the outer ones first. -/
def parts : Expr → List Expr
  | .assignment target value => .assignment target value :: (parts target ++ parts value)
  | .binary op left right => .binary op left right :: (parts left ++ parts right)
  | .object properties => .object properties :: partsOfProperties properties
  | .call callee arguments => .call callee arguments :: (parts callee ++ partsOfList arguments)
  | .member owner property computed =>
      .member owner property computed :: (parts owner ++ parts property)
  | .identifier name => [.identifier name]
  | .number value => [.number value]
  | .string value => [.string value]

/-- The parts of some expressions. -/
def partsOfList : List Expr → List Expr
  | [] => []
  | e :: es => parts e ++ partsOfList es

/-- The parts of a property. -/
def partsOfProperty : Property → List Expr
  | .shorthand _ => []
  | .entry _ value => parts value

/-- The parts of some properties. -/
def partsOfProperties : List Property → List Expr
  | [] => []
  | p :: ps => partsOfProperty p ++ partsOfProperties ps

end

end Expr

/-- The expressions in a phrase. -/
def Phrase.parts : Phrase → List Expr
  | .expr _ e => e.parts
  | .arguments es => Expr.partsOfList es
  | .property p => Expr.partsOfProperty p
  | .properties ps => Expr.partsOfProperties ps

/-! ## Keys -/

namespace Derives

variable {ts : List Terminal}

theorem mem_of_property {p : Property} (h : Derives (.property p) ts) :
    ⟨.identifier, p.key⟩ ∈ ts := by
  cases h with
  | @shorthand t ht =>
    show (⟨.identifier, t.value⟩ : Terminal) ∈ [t]
    rw [← ht]
    exact .head _
  | @entry t _ _ _ ht =>
    show (⟨.identifier, t.value⟩ : Terminal) ∈ _
    rw [← ht]
    exact .head _

/-- The keys of some properties stood among their terminals. -/
theorem mem_of_properties {ps : List Property} (h : Derives (.properties ps) ts) :
    ∀ p ∈ ps, ⟨.identifier, p.key⟩ ∈ ts := by
  induction ps generalizing ts with
  | nil => exact List.forall_mem_nil _
  | cons p ps ih =>
    cases h with
    | lastProperty hp => exact List.forall_mem_singleton.2 hp.mem_of_property
    | moreProperties hp _ hps =>
      exact List.forall_mem_cons.2 ⟨List.mem_append_left _ hp.mem_of_property, fun q hq =>
        List.mem_append_right _ (.tail _ (ih hps q hq))⟩

end Derives

/-! ## What is known of a part -/

/-- What an expression by itself says of the terminals among which it stood. -/
def Expr.StoodIn (ts : List Terminal) : Expr → Prop
  | .identifier name => ⟨.identifier, name⟩ ∈ ts
  | .number value => ∃ t ∈ ts, t.kind = .number ∧ Numeral.read? t.value.toList = some value
  | .object properties => ∀ p ∈ properties, ⟨.identifier, p.key⟩ ∈ ts
  | .member _ property false => ∃ name, property = .identifier name
  | _ => True

theorem Expr.StoodIn.mono {ts us : List Terminal} {e : Expr} (h : e.StoodIn ts)
    (hsub : ts ⊆ us) : e.StoodIn us := by
  cases e with
  | identifier => exact hsub h
  | number =>
    obtain ⟨t, ht, hnumber⟩ := h
    exact ⟨t, hsub ht, hnumber⟩
  | object => exact fun p hp => hsub (h p hp)
  | member _ _ computed =>
    cases computed with
    | false => exact h
    | true => trivial
  | assignment | binary | call | string => trivial

/-- Every part of a phrase stood among the terminals of the phrase. -/
theorem Derives.stoodIn_of_mem_parts {phrase : Phrase} {ts : List Terminal}
    (h : Derives phrase ts) {e : Expr} (he : e ∈ phrase.parts) : e.StoodIn ts := by
  have hleft {us vs : List Terminal} : us ⊆ us ++ vs := List.subset_append_left us vs
  have hright {us vs : List Terminal} {t : Terminal} : vs ⊆ us ++ t :: vs :=
    fun _ hu => List.mem_append_right us (.tail t hu)
  have hinner (us : List Terminal) {vs : List Terminal} {l r : Terminal} :
      vs ⊆ us ++ l :: (vs ++ [r]) :=
    fun _ hu => List.mem_append_right us (.tail l (List.mem_append_left [r] hu))
  induction h with
  | @name t ht =>
    rw [List.mem_singleton.1 he]
    show (⟨.identifier, t.value⟩ : Terminal) ∈ [t]
    rw [← ht]
    exact .head _
  | @number t _ ht hd =>
    rw [List.mem_singleton.1 he]
    exact ⟨t, .head _, ht, hd⟩
  | string =>
    rw [List.mem_singleton.1 he]
    trivial
  | group _ _ _ ih => exact (ih he).mono (hinner [])
  | loosen _ _ ih => exact ih he
  | @dot _ _ name _ _ _ _ _ iho ihn =>
    rcases List.mem_cons.1 he with rfl | he
    · exact ⟨name, rfl⟩
    · rcases List.mem_append.1 he with he | he
      · exact (iho he).mono hleft
      · exact (ihn he).mono hright
  | index _ _ _ _ iho ihp =>
    rcases List.mem_cons.1 he with rfl | he
    · trivial
    · rcases List.mem_append.1 he with he | he
      · exact (iho he).mono hleft
      · exact (ihp he).mono (hinner _)
  | apply _ _ _ _ ihf ihes =>
    rcases List.mem_cons.1 he with rfl | he
    · trivial
    · rcases List.mem_append.1 he with he | he
      · exact (ihf he).mono hleft
      · exact (ihes he).mono (hinner _)
  | binary _ _ _ _ ihl ihr =>
    rcases List.mem_cons.1 he with rfl | he
    · trivial
    · rcases List.mem_append.1 he with he | he
      · exact (ihl he).mono hleft
      · exact (ihr he).mono hright
  | object _ hps _ ih =>
    rcases List.mem_cons.1 he with rfl | he
    · exact fun p hp => hinner [] (hps.mem_of_properties p hp)
    · exact (ih he).mono (hinner [])
  | assign _ _ _ iht ihv =>
    rcases List.mem_cons.1 he with rfl | he
    · trivial
    · rcases List.mem_append.1 he with he | he
      · exact (iht he).mono hleft
      · exact (ihv he).mono hright
  | noArguments | shorthand | noProperties => cases he
  | lastArgument _ ih | lastProperty _ ih =>
    rcases List.mem_append.1 he with he | he
    · exact ih he
    · cases he
  | moreArguments _ _ _ ihe ihes =>
    rcases List.mem_append.1 he with he | he
    · exact (ihe he).mono hleft
    · exact (ihes he).mono hright
  | entry _ _ _ ih => exact (ih he).mono fun _ hu => .tail _ (.tail _ hu)
  | moreProperties _ _ _ ihp ihps =>
    rcases List.mem_append.1 he with he | he
    · exact (ihp he).mono hleft
    · exact (ihps he).mono hright

end Scriptlet
