import TinyScript.Proofs.EmitRoundTrip
import TinyScript.Proofs.EmittedTexts
import TinyScript.Proofs.UnsupportedStatements

/-!
# C++ text of one program behind another

Statements are emitted on their own: the text of a program behind another one is the texts of both
under one include block. The block depends on nothing but whether some variable, parameter or
function of the two programs is a string.
-/

namespace TinyScript

/-! ## Types in programs -/

/-- A type is mentioned in a statement: as that of a variable, of a parameter or of a function, at
    any depth. -/
inductive Statement.Mentions (type : String) : Statement → Prop
  | declared {name : String} {value : Expression} :
      Mentions type (.variableDeclaration name type value)
  | returned {name : String} {parameters : List Parameter} {body : List Statement} :
      Mentions type (.functionDeclaration name parameters type body)
  | taken {name returnType : String} {parameters : List Parameter} {body : List Statement}
      {parameter : Parameter} (among : parameter ∈ parameters) (typed : parameter.typeName = type) :
      Mentions type (.functionDeclaration name parameters returnType body)
  | inside {name returnType : String} {parameters : List Parameter} {body : List Statement}
      {statement : Statement} (among : statement ∈ body) (mentioned : Mentions type statement) :
      Mentions type (.functionDeclaration name parameters returnType body)

/-- A type is mentioned in a program. -/
def Program.Mentions (program : Program) (type : String) : Prop :=
  ∃ statement ∈ program.body, statement.Mentions type

namespace Cpp

mutual

theorem mem_typesUsed_iff {type : String} : (statement : Statement) →
    (type ∈ typesUsed statement ↔ statement.Mentions type)
  | .variableDeclaration name typeName value => by
    rw [typesUsed, List.mem_singleton]
    constructor
    · rintro rfl
      exact .declared
    · rintro ⟨⟩
      rfl
  | .functionDeclaration name parameters returnType body => by
    rw [typesUsed, List.mem_append, List.mem_cons, List.mem_map, mem_typesUsedInAll_iff body]
    constructor
    · rintro ((rfl | ⟨parameter, among, typed⟩) | ⟨statement, among, mentioned⟩)
      · exact .returned
      · exact .taken among typed
      · exact .inside among mentioned
    · rintro (_ | _ | ⟨among, typed⟩ | ⟨among, mentioned⟩)
      · exact .inl (.inl rfl)
      · exact .inl (.inr ⟨_, among, typed⟩)
      · exact .inr ⟨_, among, mentioned⟩
  | .returnStatement argument => by
    rw [typesUsed]
    constructor
    · intro member
      cases member
    · rintro ⟨⟩

/-- Every use of a type counts, at whatever depth, and nothing else does. -/
theorem mem_typesUsedInAll_iff {type : String} : (body : List Statement) →
    (type ∈ typesUsedInAll body ↔ ∃ statement ∈ body, statement.Mentions type)
  | [] => by simp [typesUsedInAll]
  | statement :: body => by
    rw [typesUsedInAll, List.mem_append, mem_typesUsed_iff statement, mem_typesUsedInAll_iff body,
      List.exists_mem_cons_iff]

end

instance (program : Program) (type : String) : Decidable (program.Mentions type) :=
  decidable_of_iff _ (mem_typesUsedInAll_iff program.body)

/-- The include block of a text with strings or without. -/
def includeBlock (strings : Prop) [Decidable strings] : String :=
  if strings then "#include <string>\n\n" else ""

theorem includeBlock_congr {strings strings' : Prop} [Decidable strings] [Decidable strings']
    (same : strings ↔ strings') : includeBlock strings = includeBlock strings' :=
  if_congr same rfl rfl

theorem render_includesOf (program : Program) :
    (includesOf program).render = includeBlock (program.Mentions "string") := by
  rw [includesOf_eq, includeBlock]
  by_cases strings : program.Mentions "string"
  · rw [if_pos ((mem_typesUsedInAll_iff _).mpr strings), if_pos strings]
    rfl
  · rw [if_neg (mt (mem_typesUsedInAll_iff _).mp strings), if_neg strings]
    rfl

/-! ## Texts of programs -/

theorem emit_eq_ok_iff {indent text : String} {program : Program} :
    emit indent program = .ok text ↔ ∃ body, bodyText indent program = .ok body ∧
      text = includeBlock (program.Mentions "string") ++ body := by
  rw [emit, render_includesOf]
  cases bodyText indent program with
  | error error => simp [bind, Except.bind]
  | ok body => simp [bind, Except.bind, pure, Except.pure, eq_comm]

theorem bodyText_eq_ok {indent text : String} {program : Program} (nonempty : program.body ≠ [])
    (emitted : bodyText indent program = .ok text) :
    ∃ texts, program.body.mapM (outerText indent) = .ok texts ∧ texts ≠ [] ∧
      text = String.intercalate "\n\n" texts ++ "\n" := by
  unfold bodyText at emitted
  cases results : program.body.mapM (outerText indent) with
  | error error =>
    rw [results] at emitted
    cases emitted
  | ok texts =>
    have some : texts ≠ [] := by
      rw [(map_of_mapM "" results).1]
      simpa using nonempty
    rw [results] at emitted
    cases emitted
    exact ⟨texts, rfl, some, by simp [some]⟩

/-- An empty line stands between the texts of two programs as between two statements. -/
theorem bodyText_append {indent text text' : String} {first second : Program}
    (nonempty : first.body ≠ []) (nonempty' : second.body ≠ [])
    (emitted : bodyText indent first = .ok text) (emitted' : bodyText indent second = .ok text') :
    bodyText indent ⟨first.body ++ second.body⟩ = .ok (text ++ "\n" ++ text') := by
  obtain ⟨texts, results, some, rfl⟩ := bodyText_eq_ok nonempty emitted
  obtain ⟨texts', results', some', rfl⟩ := bodyText_eq_ok nonempty' emitted'
  have joined : String.intercalate "\n\n" (texts ++ texts') =
      String.intercalate "\n\n" texts ++ "\n\n" ++ String.intercalate "\n\n" texts' :=
    String.intercalate_append_of_ne_nil some some'
  rw [bodyText, List.mapM_append, results, results']
  simp [bind, Except.bind, pure, Except.pure, some, joined, String.append_assoc]

/-- No include line is left in a text without its include block. -/
theorem head?_bodyText {indent text : String} {program : Program} (nonempty : program.body ≠ [])
    (emitted : bodyText indent program = .ok text) : text.toList.head? ≠ some '#' := by
  obtain ⟨statements⟩ := program
  cases statements with
  | nil => exact absurd rfl nonempty
  | cons statement rest =>
    obtain ⟨sourceType, more, starts⟩ := bodyText_cons emitted
    rw [starts]
    unfold typeName
    split <;> simp

theorem mentions_append_iff {first second : Program} {type : String} :
    (Program.mk (first.body ++ second.body)).Mentions type ↔
      first.Mentions type ∨ second.Mentions type := by
  simp only [Program.Mentions, List.mem_append, or_and_right, exists_or]

theorem emits_append_iff (indent : String) (first second : Program) :
    (∃ text, emit indent ⟨first.body ++ second.body⟩ = .ok text) ↔
      (∃ text, emit indent first = .ok text) ∧ ∃ text, emit indent second = .ok text := by
  simp only [← refusal?_eq_none_iff, refusal?_emit, inDocumentOrder, List.flatMap_append,
    List.findSome?_append, Option.or_eq_none_iff]

/-- A program behind another one is emitted exactly if both are, and then as both of them under one
    include block, which is needed exactly if one of them mentions strings. -/
theorem emit_append {indent : String} {first second : Program} (nonempty : first.body ≠ [])
    (nonempty' : second.body ≠ []) :
    ((∃ text, emit indent ⟨first.body ++ second.body⟩ = .ok text) ↔
      (∃ text, emit indent first = .ok text) ∧ ∃ text, emit indent second = .ok text) ∧
    ∀ text text', emit indent first = .ok text → emit indent second = .ok text' →
      ∃ body body',
        text = includeBlock (first.Mentions "string") ++ body ∧ body.toList.head? ≠ some '#' ∧
        text' = includeBlock (second.Mentions "string") ++ body' ∧ body'.toList.head? ≠ some '#' ∧
        emit indent ⟨first.body ++ second.body⟩ =
          .ok (includeBlock (first.Mentions "string" ∨ second.Mentions "string") ++
            body ++ "\n" ++ body') := by
  refine ⟨emits_append_iff indent first second, ?_⟩
  intro text text' emitted emitted'
  obtain ⟨body, rendered, rfl⟩ := emit_eq_ok_iff.mp emitted
  obtain ⟨body', rendered', rfl⟩ := emit_eq_ok_iff.mp emitted'
  refine ⟨body, body', rfl, head?_bodyText nonempty rendered, rfl,
    head?_bodyText nonempty' rendered', ?_⟩
  refine emit_eq_ok_iff.mpr ⟨_, bodyText_append nonempty nonempty' rendered rendered', ?_⟩
  rw [includeBlock_congr mentions_append_iff, String.append_assoc, String.append_assoc,
    String.append_assoc]

/-- Only the second program has a string, in the body of a function. -/
theorem emit_append_string_inside :
    ([.variableDeclaration "a" "number" (.identifier "b")] : List Statement) ≠ [] ∧
    ([.functionDeclaration "f" [] "number"
      [.variableDeclaration "c" "string" (.string "#")]] : List Statement) ≠ [] ∧
    ∃ body body', "int a = b;\n" = "" ++ body ∧
      "#include <string>\n\nint f() \x7b\n  std::string c = \"#\";\n\x7d\n" =
        "#include <string>\n\n" ++ body' ∧
      emit "  " ⟨[.variableDeclaration "a" "number" (.identifier "b"),
        .functionDeclaration "f" [] "number"
          [.variableDeclaration "c" "string" (.string "#")]]⟩ =
        .ok ("#include <string>\n\n" ++ body ++ "\n" ++ body') := by
  have numbers : emit "  " ⟨[.variableDeclaration "a" "number" (.identifier "b")]⟩ =
      .ok "int a = b;\n" := by cbv
  have strings : emit "  " ⟨[.functionDeclaration "f" [] "number"
      [.variableDeclaration "c" "string" (.string "#")]]⟩ =
      .ok "#include <string>\n\nint f() \x7b\n  std::string c = \"#\";\n\x7d\n" := by cbv
  obtain ⟨body, body', text, -, text', -, joined⟩ :=
    (emit_append (List.cons_ne_nil _ _) (List.cons_ne_nil _ _)).2 _ _ numbers strings
  exact ⟨List.cons_ne_nil _ _, List.cons_ne_nil _ _, body, body', text, text', joined⟩

end Cpp

end TinyScript
