import EdmQuery.Proofs.EmissionText
import Mathlib.Control.Monad.Basic

set_option autoImplicit false

/- What reaches an output that refuses writes past its limit. A run over such an output makes the
same writes as a run over one without a limit, one after the other, up to the first that is refused.
So the output holds a beginning of the whole text, and nothing is attempted behind the refusal. -/
namespace EdmQuery

namespace Output

/-- Writes texts up to the first that is refused, and notes each write that is attempted. -/
def writeAllNoted (output : Output) (noted : List String) :
    List String → (Output × Result Unit) × List String
  | [] => ((output, .ok ()), noted)
  | text :: rest =>
    match output.write text with
    | (next, .ok ()) => next.writeAllNoted (noted ++ [text]) rest
    | (next, .error error) => ((next, .error error), noted ++ [text])

/-- The writes that are attempted when texts are written. -/
def attempts (output : Output) (texts : List String) : List String :=
  (output.writeAllNoted [] texts).2

/-- What was written keeps to the limit. -/
def IsWithin (output : Output) : Prop := ∀ limit, output.limit? = some limit → output.written ≤ limit

variable {output : Output}

/-- Notes do not change what is written. -/
theorem writeAllNoted_eq (noted texts : List String) :
    output.writeAllNoted noted texts = (output.writeAll texts, noted ++ output.attempts texts) := by
  rw [attempts]
  induction texts generalizing output noted with
  | nil => simp only [writeAllNoted, writeAll, List.append_nil]
  | cons text rest ih =>
    rw [writeAllNoted, writeAllNoted, writeAll]
    rcases output.write text with ⟨next, error | done⟩
    · rfl
    · show next.writeAllNoted (noted ++ [text]) rest =
        (next.writeAll rest, noted ++ (next.writeAllNoted [text] rest).2)
      rw [ih, ih [text], List.append_assoc]

theorem accepts_iff {text : String} :
    output.accepts text = true ↔ (output.append text).IsWithin := by
  simp only [accepts, IsWithin, append, Option.all_eq_true, decide_eq_true_eq]

theorem write_of_isWithin {text : String} (within : (output.append text).IsWithin) :
    output.write text = (output.append text, .ok ()) := if_pos (accepts_iff.2 within)

theorem write_of_not_isWithin {text : String} (past : ¬ (output.append text).IsWithin) :
    output.write text = (output, .error refusal) :=
  if_neg fun accepted => past (accepts_iff.1 accepted)

theorem attempts_of_isWithin {text : String} (rest : List String)
    (within : (output.append text).IsWithin) :
    output.attempts (text :: rest) = text :: (output.append text).attempts rest := by
  rw [attempts, writeAllNoted, write_of_isWithin within]
  show ((output.append text).writeAllNoted [text] rest).2 = _
  rw [writeAllNoted_eq]
  rfl

theorem attempts_of_not_isWithin {text : String} (rest : List String)
    (past : ¬ (output.append text).IsWithin) : output.attempts (text :: rest) = [text] := by
  rw [attempts, writeAllNoted, write_of_not_isWithin past]
  rfl

theorem append_empty : output.append "" = output := by
  simp only [append, String.append_empty, String.utf8ByteSize_empty, Nat.add_zero]

/-- All texts are accepted, or those before the first that would pass the limit; behind that one,
none is attempted. -/
theorem writeAll_cases (texts : List String) (start : output.IsWithin) :
    ((output.append (String.join texts)).IsWithin ∧
        output.writeAll texts = (output.append (String.join texts), .ok ()) ∧
          output.attempts texts = texts) ∨
      ∃ accepted refused behind, texts = accepted ++ refused :: behind ∧
        (output.append (String.join accepted)).IsWithin ∧
          ¬ (output.append (String.join accepted ++ refused)).IsWithin ∧
            output.writeAll texts = (output.append (String.join accepted), .error refusal) ∧
              output.attempts texts = accepted ++ [refused] := by
  induction texts generalizing output with
  | nil =>
    rw [String.join_nil, append_empty]
    exact .inl ⟨start, rfl, rfl⟩
  | cons text rest ih =>
    by_cases within : (output.append text).IsWithin
    · have writes : output.writeAll (text :: rest) = (output.append text).writeAll rest := by
        rw [writeAll, write_of_isWithin within]
      rw [writes, attempts_of_isWithin rest within]
      rcases ih within with ⟨all, done, tried⟩ |
        ⟨accepted, refused, behind, parts, kept, past, failed, tried⟩
      · rw [append_append, ← String.join_cons] at all done
        exact .inl ⟨all, done, congrArg (text :: ·) tried⟩
      · rw [append_append, ← String.join_cons] at kept failed
        rw [append_append, ← String.append_assoc, ← String.join_cons] at past
        exact .inr ⟨text :: accepted, refused, behind, congrArg (text :: ·) parts, kept, past,
          failed, congrArg (text :: ·) tried⟩
    · refine .inr ⟨[], text, rest, rfl, ?_, ?_, ?_, attempts_of_not_isWithin rest within⟩
      · rw [String.join_nil, append_empty]
        exact start
      · rw [String.join_nil, String.empty_append]
        exact within
      · rw [writeAll, write_of_not_isWithin within, String.join_nil, append_empty]

theorem isWithin_limited {limit : Nat} {text : String} :
    ((limited limit).append text).IsWithin ↔ text.utf8ByteSize ≤ limit := by
  simp only [IsWithin, append, limited, Option.some.injEq, forall_eq', Nat.zero_add]

/-- What a run of writes leaves in an output with a limit, next to what the same run leaves in one
without: everything, if that fits; otherwise the whole writes before the first that does not fit,
which is the last that is attempted. -/
inductive EndsWith (limit : Nat) (writes : List String) (whole : Output) :
    Output → Result Unit → Prop
  | complete (text : whole.text = String.join writes) (fits : whole.text.utf8ByteSize ≤ limit)
      (attempted : (limited limit).attempts writes = writes) :
      EndsWith limit writes whole ⟨some limit, whole.text, whole.text.utf8ByteSize⟩ (.ok ())
  | refused (accepted behind : List String) (refused written rest : String)
      (parts : writes = accepted ++ refused :: behind)
      (text : written = String.join accepted) (fits : written.utf8ByteSize ≤ limit)
      (past : limit < (written ++ refused).utf8ByteSize)
      (beginning : whole.text = written ++ rest) (proper : rest ≠ "")
      (attempted : (limited limit).attempts writes = accepted ++ [refused]) :
      EndsWith limit writes whole ⟨some limit, written, written.utf8ByteSize⟩ (.error refusal)

theorem endsWith_of_writeAll (limit : Nat) {writes : List String} {whole : Output}
    (done : unlimited.writeAll writes = (whole, .ok ())) :
    ∃ cut outcome, (limited limit).writeAll writes = (cut, outcome) ∧
      EndsWith limit writes whole cut outcome := by
  have text : whole.text = String.join writes := by
    rw [writeAll_of_unlimited writes rfl] at done
    cases done
    exact String.empty_append
  have appended (part : String) :
      (limited limit).append part = ⟨some limit, part, part.utf8ByteSize⟩ := by
    rw [append, limited, String.empty_append, Nat.zero_add]
  have start : (limited limit).IsWithin := fun _ _ => Nat.zero_le _
  rcases writeAll_cases writes start with ⟨all, written, tried⟩ |
    ⟨accepted, refused, behind, parts, kept, past, written, tried⟩
  · rw [isWithin_limited, ← text] at all
    rw [appended, ← text] at written
    exact ⟨_, _, written, .complete text all tried⟩
  · rw [isWithin_limited] at kept past
    rw [appended] at written
    refine ⟨_, _, written, .refused accepted behind refused _ (refused ++ String.join behind) parts
      rfl kept (Nat.lt_of_not_le past) ?_ ?_ tried⟩
    · rw [text, parts, String.join_append, String.join_cons]
    · intro empty
      have none : refused.utf8ByteSize = 0 := by
        have size := congrArg String.utf8ByteSize empty
        rw [String.utf8ByteSize_append, String.utf8ByteSize_empty] at size
        omega
      rw [String.utf8ByteSize_append] at past
      omega

end Output

namespace Emitter

variable {emitter : Emitter} {context : RequestContext} {supply after : Supply}

/-- A value that was prepared is written; the output takes no part before that. -/
theorem emit_of_prepare {container prepared : ComplexValue}
    (ready : emitter.prepare context container supply = ((prepared, .ok ()), after))
    (layout : Layout) (output : Output) :
    emitter.emit context layout output container supply =
      ((prepared, output.writeTokens layout (prepared.representation context)), after) := by
  simp only [emit, bind, StateT.bind, ready]
  rfl

theorem prepare_of_emit {container prepared : ComplexValue} {layout : Layout}
    {output written : Output} (done : emitter.emit context layout output container supply =
      ((prepared, written, .ok ()), after)) :
    emitter.prepare context container supply = ((prepared, .ok ()), after) := by
  rcases ready : emitter.prepare context container supply with ⟨⟨value, error | finished⟩, rest⟩
  · simp only [emit, bind, StateT.bind, ready] at done
    cases done
  · rw [emit_of_prepare ready, Prod.mk.injEq, Prod.mk.injEq] at done
    rw [done.1.1, done.2]

theorem emitAll_of_prepare {containers prepared : List ComplexValue}
    (ready : Edit.each (emitter.prepare context) containers supply = ((prepared, .ok ()), after))
    (layout : Layout) (output : Output) :
    emitter.emitAll context layout output containers supply =
      ((prepared, output.writeTokens layout (ComplexValue.representations context prepared)),
        after) := by
  simp only [emitAll, bind, StateT.bind, ready]
  rfl

theorem prepare_of_emitAll {containers prepared : List ComplexValue} {layout : Layout}
    {output written : Output} (done : emitter.emitAll context layout output containers supply =
      ((prepared, written, .ok ()), after)) :
    Edit.each (emitter.prepare context) containers supply = ((prepared, .ok ()), after) := by
  rcases ready : Edit.each (emitter.prepare context) containers supply with
    ⟨⟨values, error | finished⟩, rest⟩
  · simp only [emitAll, bind, StateT.bind, ready] at done
    cases done
  · rw [emitAll_of_prepare ready, Prod.mk.injEq, Prod.mk.injEq] at done
    rw [done.1.1, done.2]

/-- Over an output with a limit, a value or several as an array are emitted as without one, up to
the first write that would pass the limit. -/
theorem emit_limited (emitter : Emitter) (context : RequestContext) (layout : Layout)
    (limit : Nat) (supply : Supply) :
    (∀ container prepared whole after,
      emitter.emit context layout .unlimited container supply =
          ((prepared, whole, .ok ()), after) →
        ∃ cut outcome, emitter.emit context layout (.limited limit) container supply =
            ((prepared, cut, outcome), after) ∧
          Output.EndsWith limit (layout.run (prepared.representation context)).2 whole cut
            outcome) ∧
    ∀ containers prepared whole after,
      emitter.emitAll context layout .unlimited containers supply =
          ((prepared, whole, .ok ()), after) →
        ∃ cut outcome, emitter.emitAll context layout (.limited limit) containers supply =
            ((prepared, cut, outcome), after) ∧
          Output.EndsWith limit (layout.run (ComplexValue.representations context prepared)).2
            whole cut outcome := by
  constructor
  · intro container prepared whole after done
    have ready := prepare_of_emit done
    rw [emit_of_prepare ready] at done ⊢
    obtain ⟨cut, outcome, written, ends⟩ :=
      Output.endsWith_of_writeAll limit (congrArg (fun run => run.1.2) done)
    refine ⟨cut, outcome, ?_, ends⟩
    rw [Output.writeTokens, written]
  · intro containers prepared whole after done
    have ready := prepare_of_emitAll done
    rw [emitAll_of_prepare ready] at done ⊢
    obtain ⟨cut, outcome, written, ends⟩ :=
      Output.endsWith_of_writeAll limit (congrArg (fun run => run.1.2) done)
    refine ⟨cut, outcome, ?_, ends⟩
    rw [Output.writeTokens, written]

def boardedPilot : ComplexValue :=
  let name : Property := ⟨"name", .primitive .string, false, .declared⟩
  ⟨⟨1⟩, ⟨"air.Pilot", true, some "name", false, true, [name]⟩,
    [⟨name, some (.primitive (.string "Amelia")), some ⟨1⟩, []⟩], some ⟨⟨0⟩, "pilot"⟩,
    some "pilots", false, [("rank", .string "captain")]⟩

def boardedBy : Property := .navigation "pilot" ⟨"air.Pilot", false, some "pilots", true⟩

/-- A flight, with its pilot bound or not. -/
def boarded (pilots : List PropertyValue) : ComplexValue :=
  let id : Property := ⟨"id", .primitive .string, false, .declared⟩
  ⟨⟨0⟩, ⟨"air.Flight", true, some "id", false, true, [id, boardedBy]⟩,
    ⟨id, some (.primitive (.string "BA1")), some ⟨0⟩, [("seen", .bool true)]⟩ :: pilots, none,
    some "flights", false, []⟩

def boardedFlight : ComplexValue :=
  boarded [⟨boardedBy, some (.complex boardedPilot), some ⟨0⟩, []⟩]

def boarding : Emitter :=
  ⟨fun _ _ => pure none, some fun _ _ _ => return some (.complex boardedPilot)⟩

def boardingRequest : RequestContext := ⟨none, [⟨"pilot", .default⟩], .minimal⟩

theorem prepare_boarded :
    boarding.prepare boardingRequest (boarded []) ⟨2⟩ = ((boardedFlight, .ok ()), ⟨2⟩) := rfl

/-- What is written of the flight before the ETag of its pilot, and from there on. -/
def boardedText : String :=
  "\x7b\"@odata.id\":\"flights('BA1')\",\"@odata.etag\":\"W/\\\"" ++
    "03960acf4322fafb79ba120b0b105c26ed343b788d50fce601536cb232118ba4\\\"\"," ++
    "\"id\":\"BA1\",\"id@seen\":true," ++
    "\"pilot\":\x7b\"@odata.id\":\"pilots('Amelia')\",\"@odata.etag\":"

def boardedRest : String :=
  "\"W/\\\"d9566aade6ba693ac98386cfb1d73323a63f4b024d6e265960687f73e0a2a12f\\\"\"," ++
    "\"@rank\":\"captain\",\"name\":\"Amelia\"\x7d\x7d"

theorem writeTokens_boarded :
    Output.unlimited.writeTokens .compact (boardedFlight.representation boardingRequest) =
        (⟨none, boardedText ++ boardedRest, 305⟩, .ok ()) ∧
      (Output.limited 240).writeTokens .compact (boardedFlight.representation boardingRequest) =
        (⟨some 240, boardedText, 197⟩, .error Output.refusal) := by
  decide +kernel

def pilotsText : String :=
  "[\x7b\"@rank\":\"captain\",\"name\":\"Amelia\"\x7d," ++
    "\x7b\"@rank\":\"captain\",\"name\":\"Amelia\"\x7d]"

def bareRequest : RequestContext := RequestContext.default.withLevel .none

theorem writeTokens_pilots :
    Output.unlimited.writeTokens .compact
        (ComplexValue.representations bareRequest [boardedPilot, boardedPilot]) =
        (⟨none, pilotsText, 73⟩, .ok ()) ∧
      (Output.limited 73).writeTokens .compact
        (ComplexValue.representations bareRequest [boardedPilot, boardedPilot]) =
        (⟨some 73, pilotsText, 73⟩, .ok ()) := by
  decide +kernel

/-- The ETag of the pilot does not fit and is refused; two pilots in an array fit exactly. -/
theorem emit_limited_boarded :
    boarding.emit boardingRequest .compact .unlimited (boarded []) ⟨2⟩ =
        ((boardedFlight, ⟨none, boardedText ++ boardedRest, 305⟩, .ok ()), ⟨2⟩) ∧
      boarding.emit boardingRequest .compact (.limited 240) (boarded []) ⟨2⟩ =
        ((boardedFlight, ⟨some 240, boardedText, 197⟩, .error Output.refusal), ⟨2⟩) ∧
      Output.EndsWith 240 (Layout.compact.run (boardedFlight.representation boardingRequest)).2
        ⟨none, boardedText ++ boardedRest, 305⟩ ⟨some 240, boardedText, 197⟩
          (.error Output.refusal) ∧
      boarding.emitAll bareRequest .compact .unlimited [boardedPilot, boardedPilot] ⟨2⟩ =
        (([boardedPilot, boardedPilot], ⟨none, pilotsText, 73⟩, .ok ()), ⟨2⟩) ∧
      boarding.emitAll bareRequest .compact (.limited 73) [boardedPilot, boardedPilot] ⟨2⟩ =
        (([boardedPilot, boardedPilot], ⟨some 73, pilotsText, 73⟩, .ok ()), ⟨2⟩) ∧
      Output.EndsWith 73 (Layout.compact.run
          (ComplexValue.representations bareRequest [boardedPilot, boardedPilot])).2
        ⟨none, pilotsText, 73⟩ ⟨some 73, pilotsText, 73⟩ (.ok ()) := by
  have readyAll : Edit.each (boarding.prepare bareRequest) [boardedPilot, boardedPilot] ⟨2⟩ =
      (([boardedPilot, boardedPilot], .ok ()), ⟨2⟩) := rfl
  have done := emit_of_prepare prepare_boarded .compact .unlimited
  have refused := emit_of_prepare prepare_boarded .compact (.limited 240)
  have doneAll := emitAll_of_prepare readyAll .compact .unlimited
  have complete := emitAll_of_prepare readyAll .compact (.limited 73)
  rw [writeTokens_boarded.1] at done
  rw [writeTokens_boarded.2] at refused
  rw [writeTokens_pilots.1] at doneAll
  rw [writeTokens_pilots.2] at complete
  obtain ⟨last, outcome, same, ends⟩ :=
    (emit_limited boarding boardingRequest .compact 240 ⟨2⟩).1 _ _ _ _ done
  obtain ⟨lastAll, outcomeAll, sameAll, endsAll⟩ :=
    (emit_limited boarding bareRequest .compact 73 ⟨2⟩).2 _ _ _ _ doneAll
  rw [refused, Prod.mk.injEq, Prod.mk.injEq, Prod.mk.injEq] at same
  rw [complete, Prod.mk.injEq, Prod.mk.injEq, Prod.mk.injEq] at sameAll
  obtain ⟨⟨-, rfl, rfl⟩, -⟩ := same
  obtain ⟨⟨-, rfl, rfl⟩, -⟩ := sameAll
  exact ⟨done, refused, ends, doneAll, complete, endsAll⟩

end Emitter

end EdmQuery
