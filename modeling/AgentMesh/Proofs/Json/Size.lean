import AgentMesh.Json.Printer
import Mathlib.Data.String.Basic
import Mathlib.Algebra.Order.Ring.Int

/-!
# How long a document is

The bytes that the compact text of a document takes, part by part.
-/

namespace AgentMesh.Json

open String

def size (v : Json) : Nat :=
  utf8Len v.print

/-- A member of an object takes its name, its value, the colon, and the comma or brace after it. -/
def memberSize : Option String × Json → Nat
  | (k, v) => utf8Len (printText k) + v.size + 2

theorem utf8Len_printItems (vs : List Json) : utf8Len (printItems vs) = (vs.map fun v => v.size + 1).sum := by
  induction vs with
  | nil => rfl
  | cons v vs ih =>
      have hcomma : Char.utf8Size ',' = 1 := rfl
      rw [printItems, utf8Len_cons, utf8Len_append, ih, List.map_cons, List.sum_cons, size, hcomma]
      omega

theorem utf8Len_printMembers (ms : List (Option String × Json)) :
    utf8Len (printMembers ms) = (ms.map memberSize).sum := by
  induction ms with
  | nil => rfl
  | cons m ms ih =>
      obtain ⟨k, v⟩ := m
      have hcomma : Char.utf8Size ',' = 1 := rfl
      have hcolon : Char.utf8Size ':' = 1 := rfl
      rw [printMembers, utf8Len_cons, utf8Len_append, utf8Len_cons, utf8Len_append, ih, List.map_cons, List.sum_cons,
        memberSize, size, hcomma, hcolon]
      omega

theorem size_array {vs : List Json} (h : vs ≠ []) : (array vs).size = (vs.map fun v => v.size + 1).sum + 1 := by
  cases vs with
  | nil => exact absurd rfl h
  | cons v vs =>
      have hopen : Char.utf8Size '[' = 1 := rfl
      have hclose : utf8Len [']'] = 1 := rfl
      rw [size, print, utf8Len_cons, utf8Len_append, utf8Len_append, utf8Len_printItems, List.map_cons, List.sum_cons,
        size, hopen, hclose]
      omega

theorem size_object {ms : List (Option String × Json)} (h : ms ≠ []) :
    (object ms).size = (ms.map memberSize).sum + 1 := by
  cases ms with
  | nil => exact absurd rfl h
  | cons m ms =>
      obtain ⟨k, v⟩ := m
      have hopen : Char.utf8Size '\x7b' = 1 := rfl
      have hcolon : Char.utf8Size ':' = 1 := rfl
      have hclose : utf8Len ['\x7d'] = 1 := rfl
      rw [size, print, utf8Len_cons, utf8Len_append, utf8Len_cons, utf8Len_append, utf8Len_append, utf8Len_printMembers,
        List.map_cons, List.sum_cons, memberSize, size, hopen, hcolon, hclose]
      omega

/-- An object grows with the value of each of its members. -/
theorem size_record_set (before after : List (String × Json)) (k : String) (v w : Json) :
    (record (before ++ (k, v) :: after)).size + w.size = (record (before ++ (k, w) :: after)).size + v.size := by
  rw [record, record, size_object (by simp), size_object (by simp)]
  simp only [List.map_append, List.map_cons, List.sum_append, List.sum_cons, memberSize]
  omega

theorem flatMap_escapeChar_of_plain {cs : List Char} (h : ∀ c ∈ cs, escapeChar c = [c]) :
    cs.flatMap escapeChar = cs := by
  induction cs with
  | nil => rfl
  | cons c cs ih =>
      rw [List.flatMap_cons, h c List.mem_cons_self, ih fun c hc => h c (List.mem_cons_of_mem _ hc)]
      rfl

/-- A text without characters to escape takes its own bytes and the quotes. -/
theorem size_str_of_plain {cs : List Char} (h : ∀ c ∈ cs, escapeChar c = [c]) :
    (str (String.ofList cs)).size = utf8Len cs + 2 := by
  have hquote : Char.utf8Size '"' = 1 := rfl
  have hclose : utf8Len ['"'] = 1 := rfl
  rw [size, str, print, printText, quote, String.toList_ofList, flatMap_escapeChar_of_plain h, List.cons_append,
    utf8Len_cons, utf8Len_append, hquote, hclose]

end AgentMesh.Json
