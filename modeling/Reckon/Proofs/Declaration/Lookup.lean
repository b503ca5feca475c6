import Reckon.Proofs.Declaration.Named
import Reckon.Proofs.FunctionTable

/-!
Looking a function up agrees with reading its declaration. The text in front of the first `=` and of
the first opening bracket, trimmed and in lower case, is the name that the declaration is read with,
whatever its body holds. So a lookup finds the first source of a name, what it finds has the name
that was asked for, and sources of other names do not count, even if they cannot be read.
-/

namespace Reckon

variable {source name : String} {declaration : Declaration}

namespace Declaration

theorem declaredName_of_read (found : read source = .ok declaration) :
    FunctionTable.declaredName source = declaration.name := by
  obtain ⟨header, body, tokens, cut, -, written, declared, -, -⟩ := read_eq_ok_iff.mp found
  obtain ⟨front, c, list, first, rest, split, plain, opens, alone, -, rfl⟩ :=
    exists_opening written declared
  obtain ⟨_, _, same, -, named⟩ := declared.exists_first
  obtain ⟨rfl, -⟩ := List.cons.inj same
  rw [FunctionTable.declaredName, Text.upTo_of_cut cut, Text.upTo_eq split plain opens,
    Scanner.normalName_of_written alone, named]

theorem normalName_of_read (found : read source = .ok declaration) :
    Text.normalName declaration.name = declaration.name := by
  obtain ⟨header, body, tokens, -, -, written, declared, -, -⟩ := read_eq_ok_iff.mp found
  obtain ⟨⟨kind, text⟩, rest, rfl, rfl, named⟩ := declared.exists_first
  have formed := written.wellFormed (List.mem_cons_self ..)
  rw [← named]
  exact formed.normalName_lowercase

end Declaration

namespace FunctionTable

/-- The name that a source is declared under is the name that it is read with, and lookups go by it:
they find the first source of a name or none at all, and no source of another name makes a
difference. -/
theorem lookup_agrees :
    (∀ source declaration, Declaration.read source = .ok declaration →
      declaredName source = declaration.name) ∧
    ∀ (table : FunctionTable) (name : String),
      (table.find? name = .ok none ↔
        ∀ source ∈ table.sources, declaredName source ≠ Text.normalName name) ∧
      (∀ before source after, table.sources = before ++ source :: after →
        declaredName source = Text.normalName name →
        (∀ earlier ∈ before, declaredName earlier ≠ Text.normalName name) →
          table.find? name = (Declaration.read source).map some) ∧
      (∀ declaration, table.find? name = .ok (some declaration) →
        declaration.name = Text.normalName name) ∧
      (∀ before source after declaration, table.sources = before ++ source :: after →
        Declaration.read source = .ok declaration →
        (∀ earlier ∈ before, declaredName earlier ≠ declaration.name) →
          table.find? declaration.name = .ok (some declaration)) ∧
      ∀ before source after, table.sources = before ++ source :: after →
        declaredName source ≠ Text.normalName name →
          table.find? name = find? ⟨before ++ after⟩ name := by
  refine ⟨fun _ _ => Declaration.declaredName_of_read, fun table name => ⟨find?_eq_none_iff,
    fun _ _ _ same declared others => find?_of_first same declared others, ?_, ?_, ?_⟩⟩
  · intro declaration found
    obtain ⟨source, -, declared, read⟩ := exists_source_of_find? found
    rw [← declared, Declaration.declaredName_of_read read]
  · intro before source after declaration same read others
    have normal := Declaration.normalName_of_read read
    have declared := Declaration.declaredName_of_read read
    rw [find?_of_first same (by rw [normal, declared]) (by rwa [normal]), read]
    rfl
  · rintro before source after same other
    obtain ⟨sources⟩ := table
    obtain rfl : sources = before ++ source :: after := same
    exact find?_insert other

theorem lookup_agrees_of_square :
    let square : Declaration := ⟨"sq", ["v"], "v^2=(v)", "Sq [ v ] = v^2=(v)"⟩
    let table : FunctionTable := ⟨["bad=5", square.source, "sq(w)=w"]⟩
    declaredName square.source = square.name ∧
      table.find? " SQ" = .ok (some square) ∧ table.find? square.name = .ok (some square) ∧
        table.find? "SQ" = find? ⟨[square.source, "sq(w)=w"]⟩ "SQ" := by
  intro square table
  obtain ⟨names, lookups⟩ := lookup_agrees
  have read : Declaration.read square.source = .ok square := by decide +kernel
  have named := names _ _ read
  have earlier : ∀ other ∈ ["bad=5"], declaredName other ≠ square.name := by decide +kernel
  have normal : Text.normalName " SQ" = square.name := by decide +kernel
  refine ⟨named, ?_, ?_, ?_⟩
  · have found := (lookups table " SQ").2.1 ["bad=5"] square.source ["sq(w)=w"] rfl
      (named.trans normal.symm) (by rwa [normal])
    rw [found, read]
    rfl
  · exact (lookups table "SQ").2.2.2.1 ["bad=5"] square.source ["sq(w)=w"] square rfl read earlier
  · exact (lookups table "SQ").2.2.2.2 [] "bad=5" [square.source, "sq(w)=w"] rfl (by decide +kernel)

end FunctionTable

end Reckon
