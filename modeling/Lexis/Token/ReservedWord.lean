import Lexis.Token.Kind

/-!
# Reserved words

The words that the language keeps for itself, with the kind each one stands for. Case matters:
a reserved word written in small letters is an ordinary name.
-/

set_option autoImplicit false

namespace Lexis

/-- The reserved words in alphabetical order. -/
def reservedWords : List (String × Kind) :=
  [("DECLARAR", .keyword .declare),
   ("E", .operator .and),
   ("ENQTO", .keyword .whileWord),
   ("ENTAO", .keyword .thenWord),
   ("FINAL", .keyword .endWord),
   ("IMPRIMIR", .keyword .print),
   ("INICIO", .keyword .beginWord),
   ("INTEGER", .keyword .integerType),
   ("LER", .keyword .read),
   ("OU", .operator .or),
   ("PROGRAMA", .keyword .program),
   ("REAL", .keyword .realType),
   ("SE", .keyword .ifWord),
   ("SENAO", .keyword .elseWord)]

/-- The kind of a reserved word, `none` for any other text. -/
def Kind.ofReservedWord? (word : String) : Option Kind :=
  reservedWords.lookup word

theorem Kind.ofReservedWord?_eq_some_iff {word : String} {kind : Kind} :
    Kind.ofReservedWord? word = some kind ↔ (word, kind) ∈ reservedWords := by
  constructor
  · intro h
    obtain ⟨before, after, hsplit, _⟩ := List.lookup_eq_some_iff.1 h
    simp [hsplit]
  · intro h
    simp only [reservedWords, List.mem_cons, Prod.mk.injEq, List.not_mem_nil, or_false] at h
    rcases h with ⟨rfl, rfl⟩ | ⟨rfl, rfl⟩ | ⟨rfl, rfl⟩ | ⟨rfl, rfl⟩ | ⟨rfl, rfl⟩ | ⟨rfl, rfl⟩ |
      ⟨rfl, rfl⟩ | ⟨rfl, rfl⟩ | ⟨rfl, rfl⟩ | ⟨rfl, rfl⟩ | ⟨rfl, rfl⟩ | ⟨rfl, rfl⟩ | ⟨rfl, rfl⟩ |
      ⟨rfl, rfl⟩ <;> decide

end Lexis
