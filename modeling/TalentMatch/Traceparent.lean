import TalentMatch.Lib.PyInt

/-!
# Trace contexts

`_parse_traceparent` of `functions/result_intake/__init__.py`, and its copy in
`runtime/events.py`. They decode the W3C header `traceparent`, whose fields have 32, 16
and 2 hexadecimal digits, with `int(field, 16)`.

Results:
1. `parseTraceparent_eq_some_iff`: the texts that are accepted, with their context.
2. `traceparentFaithful_iff`: the parser does what the W3C grammar says of a text exactly
   when the text is not `Loose`: three integer literals of Python with ids that are not zero,
   of which one is not written with the digits of its width.
3. `short_traceparent_accepted`: `00-1-1-1` is.
-/

namespace TalentMatch

open PyInt

/-- What the parser builds. `SpanContext` and `TraceFlags` keep the integers as they are. -/
structure SpanContext where
  traceId : Int
  spanId : Int
  isRemote : Bool
  traceFlags : Int
  deriving DecidableEq

section Parser
variable (decimal : Char → Option (Fin 10))

/-- `_parse_traceparent`, the same text in both modules. -/
def parseTraceparent (tp : String) : Option SpanContext :=
  if tp = "" then none
  else
    match PyText.split tp '-' with
    | [version, trace, span, flag] =>
      if version ≠ "00" then none
      else
        match int16 decimal trace, int16 decimal span, int16 decimal flag with
        | some traceId, some spanId, some flags =>
          if traceId = 0 ∨ spanId = 0 then none
          else
            some { traceId := traceId, spanId := spanId, isRemote := true, traceFlags := flags }
        | _, _, _ => none
    | _ => none

/-- The one of `result_intake`. -/
def intakeParseTraceparent : String → Option SpanContext := parseTraceparent decimal

/-- The one of `runtime/events.py`. -/
def eventsParseTraceparent : String → Option SpanContext := parseTraceparent decimal

end Parser

/-! ## 1. The header -/

/-- A text of version 00 with these three fields. -/
def Fielded (tp trace span flag : String) : Prop :=
  tp = "00-" ++ trace ++ "-" ++ span ++ "-" ++ flag ∧
    '-' ∉ trace.toList ∧ '-' ∉ span.toList ∧ '-' ∉ flag.toList

/-- The digits that the header has in its three fields. -/
def PlainFields (trace span flag : String) : Prop :=
  Plain 32 trace.toList ∧ Plain 16 span.toList ∧ Plain 2 flag.toList

/-- The grammar of W3C for version 00. -/
def IsW3c (tp : String) : Prop :=
  ∃ trace span flag, tp = "00-" ++ trace ++ "-" ++ span ++ "-" ++ flag ∧
    PlainFields trace span flag ∧
    (∃ c ∈ trace.toList, c ≠ '0') ∧ ∃ c ∈ span.toList, c ≠ '0'

/-- The context in the form of the header. -/
def SpanContext.print (ctx : SpanContext) : String :=
  "00-" ++ String.ofList (formatHex 32 ctx.traceId) ++ "-" ++
    String.ofList (formatHex 16 ctx.spanId) ++ "-" ++ String.ofList (formatHex 2 ctx.traceFlags)

/-- The parser accepts the grammar at a text, and its context is what the text writes. -/
structure TraceparentFaithful (parse : String → Option SpanContext) (tp : String) : Prop where
  accepts : (parse tp).isSome ↔ IsW3c tp
  bounds : ∀ ctx, parse tp = some ctx →
    (0 ≤ ctx.traceId ∧ ctx.traceId < 2 ^ 128) ∧ (0 ≤ ctx.spanId ∧ ctx.spanId < 2 ^ 64) ∧
      0 ≤ ctx.traceFlags ∧ ctx.traceFlags < 2 ^ 8
  printed : ∀ ctx, parse tp = some ctx → ctx.print = PyText.lower tp

/-- Three literals of Python integers of which one is not written with the digits of its width. -/
def Loose (decimal : Char → Option (Fin 10)) (tp : String) : Prop :=
  ∃ trace span flag, Fielded tp trace span flag ∧
    (∃ i, Literal decimal trace i ∧ i ≠ 0) ∧ (∃ i, Literal decimal span i ∧ i ≠ 0) ∧
    (∃ i, Literal decimal flag i) ∧ ¬PlainFields trace span flag

/-! ## 2. What the parser accepts -/

theorem split_eq_iff_fielded {tp trace span flag : String} :
    PyText.split tp '-' = ["00", trace, span, flag] ↔ Fielded tp trace span flag := by
  have hjoin : ['-'].intercalate (["00", trace, span, flag].map String.toList) = tp.toList ↔
      tp = "00-" ++ trace ++ "-" ++ span ++ "-" ++ flag := by
    rw [← String.toList_inj, eq_comm]
    simp [List.intercalate, List.intersperse]
  rw [PyText.split_eq_iff, hjoin]
  simp [Fielded]

/-- The texts that the parser accepts, with the context that it returns. -/
theorem parseTraceparent_eq_some_iff {decimal : Char → Option (Fin 10)} {tp : String}
    {ctx : SpanContext} :
    parseTraceparent decimal tp = some ctx ↔
      ∃ trace span flag, Fielded tp trace span flag ∧ Literal decimal trace ctx.traceId ∧
        Literal decimal span ctx.spanId ∧ Literal decimal flag ctx.traceFlags ∧
        ctx.traceId ≠ 0 ∧ ctx.spanId ≠ 0 ∧ ctx.isRemote = true := by
  constructor
  · intro h
    unfold parseTraceparent at h
    split at h
    · cases h
    split at h
    · next version trace span flag hsplit =>
      split at h
      · cases h
      · next hversion =>
        rw [not_not.mp hversion] at hsplit
        split at h
        · next traceId spanId flags htrace hspan hflag =>
          split at h
          · cases h
          · next hids =>
            rw [not_or] at hids
            cases h
            exact ⟨trace, span, flag, split_eq_iff_fielded.mp hsplit, int16_eq_some_iff.mp htrace,
              int16_eq_some_iff.mp hspan, int16_eq_some_iff.mp hflag, hids.1, hids.2, rfl⟩
        · cases h
    · cases h
  · rintro ⟨trace, span, flag, hfields, htrace, hspan, hflag, htraceId, hspanId, hremote⟩
    have hne : tp ≠ "" := by
      rintro rfl
      have hlist := congrArg String.toList hfields.1
      simp at hlist
    have hids : ¬(ctx.traceId = 0 ∨ ctx.spanId = 0) := not_or.mpr ⟨htraceId, hspanId⟩
    unfold parseTraceparent
    rw [if_neg hne, split_eq_iff_fielded.mpr hfields]
    simp only [int16_eq_some_iff.mpr htrace, int16_eq_some_iff.mpr hspan,
      int16_eq_some_iff.mpr hflag, if_neg hids, ← hremote]
    simp

example :
    parseTraceparent (fun _ => none) "00-0x1- +1-1_00" =
      some { traceId := 1, spanId := 1, isRemote := true, traceFlags := 256 } := by
  decide

/-- The fields of a text are its own. -/
theorem Fielded.unique {tp trace trace' span span' flag flag' : String}
    (h : Fielded tp trace span flag) (h' : Fielded tp trace' span' flag') :
    trace = trace' ∧ span = span' ∧ flag = flag' := by
  have heq := (split_eq_iff_fielded.mpr h).symm.trans (split_eq_iff_fielded.mpr h')
  simpa using heq

/-- Digits have no dash. -/
theorem fielded_of_plain {trace span flag : String} (h : PlainFields trace span flag) :
    Fielded ("00-" ++ trace ++ "-" ++ span ++ "-" ++ flag) trace span flag := by
  have hdash : hexDigit '-' = none := by decide
  exact ⟨rfl, fun hc => h.1.2 _ hc hdash, fun hc => h.2.1.2 _ hc hdash,
    fun hc => h.2.2.2 _ hc hdash⟩

/-! ## 3. The W3C grammar -/

section Faithful
variable {decimal : Char → Option (Fin 10)} {tp : String}

/-- The W3C grammar is accepted. -/
theorem exists_context_of_isW3c (h : IsW3c tp) : ∃ ctx, parseTraceparent decimal tp = some ctx := by
  obtain ⟨trace, span, flag, rfl, hplain, htrace, hspan⟩ := h
  have hlit : ∀ {width : Nat} {text : String}, Plain width text.toList → 0 < width →
      Literal decimal text (value text.toList) := fun hp hw =>
    literal_of_plain decimal hp.2 (List.length_pos_iff.mp (hp.1 ▸ hw))
  have htraceLit := hlit hplain.1 (by decide)
  have hspanLit := hlit hplain.2.1 (by decide)
  have hflagLit := hlit hplain.2.2 (by decide)
  exact ⟨⟨_, _, true, _⟩, parseTraceparent_eq_some_iff.mpr ⟨trace, span, flag,
    fielded_of_plain hplain, htraceLit, hspanLit, hflagLit,
    (htraceLit.of_plain hplain.1 (by decide)).2.1.mpr htrace,
    (hspanLit.of_plain hplain.2.1 (by decide)).2.1.mpr hspan, rfl⟩⟩

/-- An accepted text that is not loose has plain fields. -/
theorem plainFields_of_not_loose {ctx : SpanContext} (hloose : ¬Loose decimal tp)
    (h : parseTraceparent decimal tp = some ctx) :
    ∃ trace span flag, Fielded tp trace span flag ∧ PlainFields trace span flag ∧
      Literal decimal trace ctx.traceId ∧ Literal decimal span ctx.spanId ∧
      Literal decimal flag ctx.traceFlags ∧ ctx.traceId ≠ 0 ∧ ctx.spanId ≠ 0 := by
  obtain ⟨trace, span, flag, hfields, htrace, hspan, hflag, htraceId, hspanId, _⟩ :=
    parseTraceparent_eq_some_iff.mp h
  have hplain : PlainFields trace span flag := by
    by_contra hnot
    exact hloose ⟨trace, span, flag, hfields, ⟨_, htrace, htraceId⟩, ⟨_, hspan, hspanId⟩,
      ⟨_, hflag⟩, hnot⟩
  exact ⟨trace, span, flag, hfields, hplain, htrace, hspan, hflag, htraceId, hspanId⟩

theorem faithful_of_not_loose (hloose : ¬Loose decimal tp) :
    TraceparentFaithful (parseTraceparent decimal) tp where
  accepts := by
    constructor
    · intro h
      obtain ⟨ctx, hctx⟩ := Option.isSome_iff_exists.mp h
      obtain ⟨trace, span, flag, hfields, hplain, htrace, hspan, _, htraceId, hspanId⟩ :=
        plainFields_of_not_loose hloose hctx
      exact ⟨trace, span, flag, hfields.1, hplain,
        (htrace.of_plain hplain.1 (by decide)).2.1.mp htraceId,
        (hspan.of_plain hplain.2.1 (by decide)).2.1.mp hspanId⟩
    · intro h
      exact Option.isSome_iff_exists.mpr (exists_context_of_isW3c h)
  bounds := by
    intro ctx hctx
    obtain ⟨trace, span, flag, _, hplain, htrace, hspan, hflag, _⟩ :=
      plainFields_of_not_loose hloose hctx
    exact ⟨(htrace.of_plain hplain.1 (by decide)).1, (hspan.of_plain hplain.2.1 (by decide)).1,
      (hflag.of_plain hplain.2.2 (by decide)).1⟩
  printed := by
    intro ctx hctx
    obtain ⟨trace, span, flag, hfields, hplain, htrace, hspan, hflag, _⟩ :=
      plainFields_of_not_loose hloose hctx
    have hlower := congrArg PyText.lower hfields.1
    rw [hlower, SpanContext.print, (htrace.of_plain hplain.1 (by decide)).2.2,
      (hspan.of_plain hplain.2.1 (by decide)).2.2, (hflag.of_plain hplain.2.2 (by decide)).2.2]
    rw [← String.toList_inj]
    simp [PyText.lower]

/-- A loose text is accepted and is not in the grammar. -/
theorem accepted_of_loose (hloose : Loose decimal tp) :
    (parseTraceparent decimal tp).isSome ∧ ¬IsW3c tp := by
  obtain ⟨trace, span, flag, hfields, ⟨traceId, htrace, htraceId⟩, ⟨spanId, hspan, hspanId⟩,
    ⟨flags, hflag⟩, hnot⟩ := hloose
  constructor
  · exact Option.isSome_iff_exists.mpr ⟨⟨traceId, spanId, true, flags⟩,
      parseTraceparent_eq_some_iff.mpr ⟨trace, span, flag, hfields, htrace, hspan, hflag, htraceId,
        hspanId, rfl⟩⟩
  · rintro ⟨trace', span', flag', rfl, hplain, _⟩
    obtain ⟨rfl, rfl, rfl⟩ := hfields.unique (fielded_of_plain hplain)
    exact hnot hplain

end Faithful

/-- Both parsers are right about a text exactly when it is not loose. -/
theorem traceparentFaithful_iff (decimal : Char → Option (Fin 10)) (tp : String) :
    (TraceparentFaithful (intakeParseTraceparent decimal) tp ↔ ¬Loose decimal tp) ∧
      (TraceparentFaithful (eventsParseTraceparent decimal) tp ↔ ¬Loose decimal tp) := by
  have hiff : TraceparentFaithful (parseTraceparent decimal) tp ↔ ¬Loose decimal tp := by
    refine ⟨fun h hloose => ?_, faithful_of_not_loose⟩
    obtain ⟨haccepted, hnot⟩ := accepted_of_loose hloose
    exact hnot (h.accepts.mp haccepted)
  exact ⟨hiff, hiff⟩

/-! ## 4. A short text -/

namespace Sample

/-- The digits of ASCII. -/
def asciiDecimal (c : Char) : Option (Fin 10) :=
  if 48 ≤ c.toNat ∧ c.toNat ≤ 57 then some (Fin.ofNat 10 (c.toNat - 48)) else none

end Sample

open Sample in
/-- `00-1-1-1` is accepted by both parsers. -/
theorem short_traceparent_accepted :
    ¬TraceparentFaithful (intakeParseTraceparent asciiDecimal) "00-1-1-1" ∧
      ¬TraceparentFaithful (eventsParseTraceparent asciiDecimal) "00-1-1-1" := by
  have hparse : parseTraceparent asciiDecimal "00-1-1-1" = some ⟨1, 1, true, 1⟩ := by decide
  have hprint : (⟨1, 1, true, 1⟩ : SpanContext).print ≠ PyText.lower "00-1-1-1" := by decide
  exact ⟨fun h => hprint (h.printed _ hparse), fun h => hprint (h.printed _ hparse)⟩

end TalentMatch
