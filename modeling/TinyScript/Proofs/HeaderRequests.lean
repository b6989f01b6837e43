import TinyScript.Proofs.Indentation

/-!
# Headers in the order of first use

Headers are asked for by name or through the types that need them, and mostly more than once. They
are kept in a list to which a header is added when it is not yet in it. After any row of requests
this list holds every header that was asked for once, and one header stands before another exactly
if it was asked for earlier than the other one for the first time. The include block has a line for
each.
-/

namespace TinyScript.Cpp

/-- What is asked while a text is written: a header by its name, or what a type of the source
    language needs. -/
inductive HeaderRequest where
  | header (name : String)
  | type (sourceType : String)
  deriving DecidableEq, Repr

/-- The header that a request is for: of all types only strings need one. -/
def HeaderRequest.header? : HeaderRequest → Option String
  | header name => some name
  | type sourceType => if sourceType = "string" then some "string" else none

/-- The headers after one more request. -/
def Includes.serve (includes : Includes) : HeaderRequest → Includes
  | .header name => includes.require name
  | .type sourceType => includes.requireType sourceType

/-- The headers after a row of requests. -/
def includesAfter (requests : List HeaderRequest) : Includes :=
  requests.foldl Includes.serve {}

/-- The line of a header in an include block. -/
def headerLine (header : String) : String :=
  "#include <" ++ header ++ ">"

/-! ## First uses -/

/-- Headers are those that were asked for, in the order in which they were asked for first. -/
structure FirstUses (asked headers : List String) : Prop where
  mem_iff : ∀ header, header ∈ headers ↔ header ∈ asked
  ordered : headers.Pairwise fun header later => asked.idxOf header < asked.idxOf later

namespace FirstUses

variable {asked headers headers' : List String} {header : String}

theorem nodup (h : FirstUses asked headers) : headers.Nodup := by
  refine h.ordered.imp ?_
  rintro header _ less rfl
  exact Nat.lt_irrefl _ less

/-- Requests determine the order of their headers. -/
theorem unique (h : FirstUses asked headers) (h' : FirstUses asked headers') :
    headers = headers' := by
  have perm : headers.Perm headers' := by
    rw [List.perm_ext_iff_of_nodup h.nodup h'.nodup]
    intro header
    rw [h.mem_iff, h'.mem_iff]
  refine perm.eq_of_pairwise ?_ h.ordered h'.ordered
  intro header later _ _ less less'
  exact absurd less (Nat.lt_asymm less')

/-- A further request does not change where the others were made first. -/
theorem ordered_concat (h : FirstUses asked headers) (header : String) :
    headers.Pairwise fun first second =>
      (asked ++ [header]).idxOf first < (asked ++ [header]).idxOf second := by
  refine h.ordered.imp_of_mem ?_
  intro first second member member' less
  rwa [List.idxOf_append_of_mem ((h.mem_iff first).mp member),
    List.idxOf_append_of_mem ((h.mem_iff second).mp member')]

theorem again (h : FirstUses asked headers) (known : header ∈ headers) :
    FirstUses (asked ++ [header]) headers := by
  refine ⟨?_, h.ordered_concat header⟩
  intro other
  rw [List.mem_append, ← h.mem_iff, List.mem_singleton]
  constructor
  · exact Or.inl
  · rintro (member | rfl)
    · exact member
    · exact known

theorem further (h : FirstUses asked headers) (new : header ∉ headers) :
    FirstUses (asked ++ [header]) (headers ++ [header]) := by
  refine ⟨?_, ?_⟩
  · intro other
    rw [List.mem_append, List.mem_append, h.mem_iff]
  · refine List.pairwise_append.mpr ⟨h.ordered_concat header, List.pairwise_singleton _ _, ?_⟩
    -- All headers so far were asked for among the earlier requests, and the new one was not.
    intro first member last isLast
    rw [List.mem_singleton.mp isLast]
    have early : first ∈ asked := (h.mem_iff first).mp member
    rw [List.idxOf_append_of_mem early, List.idxOf_append_of_notMem (mt (h.mem_iff header).mpr new)]
    exact Nat.lt_of_lt_of_le (List.idxOf_lt_length_iff.mpr early) (Nat.le_add_right _ _)

end FirstUses

/-! ## Requests one after the other -/

variable {asked : List String} {includes : Includes}

theorem firstUses_require (h : FirstUses asked includes.headers) (header : String) :
    FirstUses (asked ++ [header]) (includes.require header).headers := by
  unfold Includes.require
  split
  · rename_i known
    exact h.again (List.contains_iff_mem.mp known)
  · rename_i new
    exact h.further (mt List.contains_iff_mem.mpr new)

theorem typeHeader?_eq (sourceType : String) :
    typeHeader? sourceType = (HeaderRequest.type sourceType).header? := by
  rw [HeaderRequest.header?]
  unfold typeHeader?
  split
  · rfl
  · rename_i other
    rw [if_neg other]

/-- One request adds what it asks for to the headers that are kept. -/
theorem firstUses_serve (h : FirstUses asked includes.headers) (request : HeaderRequest) :
    FirstUses (asked ++ request.header?.toList) (includes.serve request).headers := by
  cases request with
  | header name => exact firstUses_require h name
  | type sourceType =>
    rw [← typeHeader?_eq, Includes.serve, Includes.requireType]
    cases typeHeader? sourceType with
    | none => simpa using h
    | some header => exact firstUses_require h header

theorem firstUses_foldl (h : FirstUses asked includes.headers) (requests : List HeaderRequest) :
    FirstUses (asked ++ requests.filterMap HeaderRequest.header?)
      (requests.foldl Includes.serve includes).headers := by
  induction requests generalizing asked includes with
  | nil => simpa using h
  | cons request requests ih =>
    have rest := ih (firstUses_serve h request)
    cases asks : request.header? with
    | none => simpa [asks] using rest
    | some header => simpa [asks] using rest

theorem firstUses_includesAfter (requests : List HeaderRequest) :
    FirstUses (requests.filterMap HeaderRequest.header?) (includesAfter requests).headers := by
  have start : FirstUses [] ({} : Includes).headers := ⟨fun _ => Iff.rfl, .nil⟩
  exact firstUses_foldl start requests

/-! ## The include block -/

theorem render_of_some (some : includes.headers ≠ []) :
    includes.render = String.join ((includes.headers.map headerLine ++ [""]).map (· ++ "\n")) := by
  have nonempty : ¬ includes.isEmpty = true := by
    simpa [Includes.isEmpty] using some
  have line : (fun header => "#include <" ++ header ++ ">\n") = (· ++ "\n") ∘ headerLine := by
    funext header
    rw [Function.comp_apply, headerLine, @String.append_assoc _ ">" "\n"]
    rfl
  rw [Includes.render, if_neg nonempty, List.map_append, List.map_map, String.join_append, line]
  rfl

theorem render_eq_empty_iff : includes.render = "" ↔ includes.headers = [] := by
  constructor
  · intro empty
    by_contra some
    have length := congrArg String.length empty
    simp [render_of_some some] at length
  · intro none
    simp [Includes.render, Includes.isEmpty, none]

/-- The lines of an include block. -/
theorem linesOf_render (some : includes.headers ≠ [])
    (unbroken : ∀ header ∈ includes.headers, Unbroken header) :
    linesOf includes.render = includes.headers.map headerLine ++ ["", ""] := by
  have lines : ∀ line ∈ includes.headers.map headerLine ++ ["", ""], Unbroken line := by
    intro line member
    rcases List.mem_append.mp member with among | last
    · obtain ⟨header, found, rfl⟩ := List.mem_map.mp among
      simp only [headerLine, unbroken_append]
      exact ⟨⟨by decide, unbroken header found⟩, by decide⟩
    · simp only [List.mem_cons, List.not_mem_nil, or_false, or_self] at last
      rw [last]
      decide
  rw [render_of_some some, join_eq_intercalate, List.append_assoc]
  exact linesOf_intercalate lines (by simp)

/-- After any row of requests the headers are those that were asked for, each once and in the
    order in which they were asked for first. The include block is empty exactly if there are
    none; otherwise it has one line for each of them, in this order, and then an empty line. -/
theorem includesAfter_in_order_of_first_use (requests : List HeaderRequest) :
    (∀ headers, (includesAfter requests).headers = headers ↔
      FirstUses (requests.filterMap HeaderRequest.header?) headers) ∧
    (includesAfter requests).headers.Nodup ∧
    ((includesAfter requests).render = "" ↔ (includesAfter requests).headers = []) ∧
    ((includesAfter requests).headers ≠ [] →
      (includesAfter requests).render =
        String.join (((includesAfter requests).headers.map headerLine ++ [""]).map (· ++ "\n")) ∧
      ((∀ header ∈ (includesAfter requests).headers, Unbroken header) →
        linesOf (includesAfter requests).render =
          (includesAfter requests).headers.map headerLine ++ ["", ""])) := by
  have uses := firstUses_includesAfter requests
  refine ⟨?_, uses.nodup, render_eq_empty_iff, ?_⟩
  · intro headers
    constructor
    · rintro rfl
      exact uses
    · exact uses.unique
  · intro some
    exact ⟨render_of_some some, linesOf_render some⟩

/-- Repeated requests by name and through a type, and a type that needs nothing. -/
theorem includesAfter_in_order_of_first_use_repeated :
    (includesAfter [.type "number", .header "vector", .type "string", .header "vector",
        .header "map", .header "string"]).headers = ["vector", "string", "map"] ∧
    linesOf (includesAfter [.type "number", .header "vector", .type "string", .header "vector",
        .header "map", .header "string"]).render =
      ["#include <vector>", "#include <string>", "#include <map>", "", ""] := by
  have headers : (includesAfter [.type "number", .header "vector", .type "string",
      .header "vector", .header "map", .header "string"]).headers =
      ["vector", "string", "map"] := by
    decide
  obtain ⟨-, -, -, block⟩ := includesAfter_in_order_of_first_use [.type "number", .header "vector",
    .type "string", .header "vector", .header "map", .header "string"]
  have lines := (block (by rw [headers]; decide)).2 (by rw [headers]; decide)
  refine ⟨headers, lines.trans ?_⟩
  rw [headers]
  decide

end TinyScript.Cpp
