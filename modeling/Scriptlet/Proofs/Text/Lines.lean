import Mathlib.Data.List.TakeDrop
import Mathlib.Data.List.TakeWhile
import Scriptlet.Text.Basic

/-!
# Runs, lines and bytes of a text

A run of characters of one class ends where the rest starts with another one.

A text falls into lines, all of which but the last are ended by a newline, and
`lines_induction` is the induction along them.

The same lines can be found in the UTF-8 form of the text, since the byte of a newline is
part of no other character (`newlineByte_notMem_bytes`).
-/

namespace Scriptlet

/-! ## Runs -/

/-- A run of characters ends where the rest starts with another one. -/
theorem takeWhile_append_of_head {p : Char → Bool} {text rest : List Char}
    (htext : ∀ c ∈ text, p c) (hrest : ∀ c ∈ rest.head?, ¬ p c) :
    (text ++ rest).takeWhile p = text ∧ (text ++ rest).dropWhile p = rest := by
  rw [List.takeWhile_append_of_pos htext, List.dropWhile_append_of_pos htext]
  cases rest with
  | nil => exact ⟨List.append_nil text, rfl⟩
  | cons c rest =>
    rw [List.takeWhile_cons_of_neg (hrest c rfl), List.dropWhile_cons_of_neg (hrest c rfl)]
    exact ⟨List.append_nil text, rfl⟩

/-- A run ends where it cannot go on. -/
theorem not_of_mem_head?_dropWhile {p : Char → Bool} {text : List Char} :
    ∀ c ∈ (text.dropWhile p).head?, ¬ p c := by
  intro c hc
  have hstop := List.head?_dropWhile_not p text
  rw [hc] at hstop
  simp [hstop]

namespace Text

/-! ## Lines -/

theorem lines_of_ended {line : List Char} (h : '\n' ∉ line) (text : List Char) :
    lines (line ++ '\n' :: text) = (line ++ ['\n']) :: lines text := by
  induction line with
  | nil =>
    rw [List.nil_append, lines, if_pos rfl]
    rfl
  | cons c line ih =>
    obtain ⟨hc, hline⟩ := List.ne_and_not_mem_of_not_mem_cons h
    rw [List.cons_append, lines, if_neg (Ne.symm hc), ih hline]
    rfl

theorem lines_of_unended {line : List Char} (hne : line ≠ []) (h : '\n' ∉ line) :
    lines line = [line] := by
  induction line with
  | nil => exact absurd rfl hne
  | cons c line ih =>
    obtain ⟨hc, hline⟩ := List.ne_and_not_mem_of_not_mem_cons h
    rw [lines, if_neg (Ne.symm hc)]
    cases line with
    | nil => rfl
    | cons d line => rw [ih (List.cons_ne_nil _ _) hline]

theorem chomp_of_unended {line : List Char} (h : '\n' ∉ line) : chomp line = line := by
  induction line with
  | nil => rfl
  | cons c line ih =>
    obtain ⟨hc, hline⟩ := List.ne_and_not_mem_of_not_mem_cons h
    rw [chomp, ih hline]
    · exact fun hnewline _ => hc hnewline.symm
    · rintro _ rfl
      exact hline (.head [])

/-- With its newline a line loses a carriage return at its end. -/
theorem chomp_of_ended {line : List Char} (h : '\n' ∉ line) : chomp (line ++ ['\n']) = line ∨
    ∃ front, line = front ++ ['\r'] ∧ chomp (line ++ ['\n']) = front := by
  induction line with
  | nil => exact .inl rfl
  | cons c line ih =>
    obtain ⟨hc, hline⟩ := List.ne_and_not_mem_of_not_mem_cons h
    by_cases hreturn : c = '\r' ∧ line = []
    · obtain ⟨rfl, rfl⟩ := hreturn
      exact .inr ⟨[], rfl, rfl⟩
    have hchomp : chomp (c :: line ++ ['\n']) = c :: chomp (line ++ ['\n']) := by
      rw [List.cons_append, chomp]
      · exact fun hnewline _ => hc hnewline.symm
      · intro hc hnewline
        exact hreturn ⟨hc, List.append_left_eq_self.1 hnewline⟩
    rw [hchomp]
    obtain hsame | ⟨front, rfl, hfront⟩ := ih hline
    · exact .inl (congrArg _ hsame)
    · exact .inr ⟨c :: front, rfl, congrArg _ hfront⟩

/-- What holds of no text and of a last line without a newline, and what holds of a line with
what follows it if it holds of what follows, holds of every text. -/
@[elab_as_elim]
theorem lines_induction {motive : List Char → Prop} (empty : motive [])
    (unended : ∀ {line : List Char}, line ≠ [] → '\n' ∉ line → motive line)
    (ended : ∀ {line rest : List Char}, '\n' ∉ line → motive rest →
      motive (line ++ '\n' :: rest))
    (text : List Char) : motive text := by
  induction hlength : text.length using Nat.strongRecOn generalizing text with
  | _ length ih =>
    subst hlength
    by_cases h : '\n' ∈ text
    · obtain ⟨line, rest, rfl, hline⟩ := List.eq_append_cons_of_mem h
      exact ended hline (ih rest.length (by simp; omega) rest rfl)
    · by_cases hne : text = []
      · exact hne ▸ empty
      · exact unended hne h

/-! ## Bytes -/

/-- The UTF-8 form of a text. -/
def bytes (text : List Char) : List UInt8 := text.flatMap String.utf8EncodeChar

/-- The byte of a newline. -/
def newlineByte : UInt8 := 10

@[simp] theorem bytes_nil : bytes [] = [] := rfl

@[simp] theorem bytes_cons (c : Char) (text : List Char) :
    bytes (c :: text) = String.utf8EncodeChar c ++ bytes text := rfl

@[simp] theorem bytes_append (left right : List Char) :
    bytes (left ++ right) = bytes left ++ bytes right := List.flatMap_append

theorem bytes_newline : bytes ['\n'] = [newlineByte] := by decide

@[simp] theorem length_bytes (text : List Char) : (bytes text).length = byteSize text := by
  induction text with
  | nil => rfl
  | cons c text ih =>
    rw [bytes_cons, List.length_append, String.length_utf8EncodeChar, ih, byteSize_cons]

/-- The bytes of a string are those of its characters. -/
theorem bytes_toList (source : String) : bytes source.toList = source.toUTF8.data.toList := by
  have hbytes : source.toUTF8 = source.toList.utf8Encode := by
    rw [← String.toByteArray_ofList, String.ofList_toList]
    rfl
  rw [hbytes, List.utf8Encode, List.toList_data_toByteArray, bytes]

theorem bytes_injective {text text' : List Char} (h : bytes text = bytes text') : text = text' := by
  have hbytes : (String.ofList text).toByteArray.data.toList =
      (String.ofList text').toByteArray.data.toList := by
    rw [← String.toList_ofList (l := text), ← String.toList_ofList (l := text'), bytes_toList,
      bytes_toList] at h
    exact h
  refine String.ofList_injective (String.toByteArray_inj.1 (ByteArray.ext ?_))
  exact Array.toList_inj.1 hbytes

theorem byteSize_replicate (n : Nat) (c : Char) :
    byteSize (List.replicate n c) = n * c.utf8Size := by
  induction n with
  | zero => rw [Nat.zero_mul, List.replicate_zero, byteSize_nil]
  | succ n ih => rw [List.replicate_succ, byteSize_cons, ih, Nat.succ_mul, Nat.add_comm]

/-- The size of a text is that of its string. -/
theorem byteSize_toList (source : String) : byteSize source.toList = source.utf8ByteSize := by
  rw [← length_bytes, bytes_toList]
  rfl

/-- The byte of a newline is no part of another character. -/
theorem eq_newline_of_mem {c : Char} (h : newlineByte ∈ String.utf8EncodeChar c) : c = '\n' := by
  -- The bytes of a character of more than one byte are 128 and more.
  have hlarge {n : Nat} (hlow : 128 ≤ n) (hhigh : n < 256) : newlineByte ≠ UInt8.ofNat n := by
    intro h
    have hn : 10 = n % 256 := congrArg UInt8.toNat h
    omega
  rw [String.utf8EncodeChar] at h
  split at h
  next hascii =>
    have hcode : 10 = c.val.toNat % 256 := congrArg UInt8.toNat (List.mem_singleton.1 h)
    exact Char.ext (UInt32.toNat_inj.1 (show c.val.toNat = 10 by omega))
  next =>
    exfalso
    split at h
    next =>
      simp only [List.mem_cons, List.not_mem_nil, or_false] at h
      rcases h with h | h <;> exact hlarge (by omega) (by omega) h
    next =>
      split at h
      next =>
        simp only [List.mem_cons, List.not_mem_nil, or_false] at h
        rcases h with h | h | h <;> exact hlarge (by omega) (by omega) h
      next =>
        simp only [List.mem_cons, List.not_mem_nil, or_false] at h
        rcases h with h | h | h | h <;> exact hlarge (by omega) (by omega) h

theorem newlineByte_notMem_bytes {text : List Char} (h : '\n' ∉ text) :
    newlineByte ∉ bytes text := by
  intro hmem
  obtain ⟨c, hc, hbyte⟩ := List.mem_flatMap.1 hmem
  exact h (eq_newline_of_mem hbyte ▸ hc)

end Text

end Scriptlet
