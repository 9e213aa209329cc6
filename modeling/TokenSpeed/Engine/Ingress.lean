import Mathlib.Data.Rat.Init
import TokenSpeed.Engine.Request

/-!
# The ingress

`admit` of `ts-control/src/ingress.rs` with the checks of `sampling.rs`: which requests run, and the spec each
is handed to the scheduler with. Floats are rationals, and what only the data plane reads (seeds, stop string
bounds, multimodal wire frames) is left out.
-/

namespace TokenSpeed.Engine

/-! ## What the frontend sends -/

structure SamplingParams where
  n : Int := 1
  maxNewTokens : Option Int := none
  minNewTokens : Int := 0
  temperature : Rat := 1
  topP : Rat := 1
  minP : Rat := 0
  topK : Int := -1
  frequencyPenalty : Rat := 0
  presencePenalty : Rat := 0
  repetitionPenalty : Rat := 1
  logitBias : List String := []
  logprobs : Option Int := none
  jsonSchema : Option String := none
  regex : Option String := none
  ebnf : Option String := none
  structuralTag : Option String := none
  stop : List String := []
  stopStrs : List String := []
  stopTokenIds : Option (List Int) := none
  ignoreEos : Bool := false
  streamInterval : Option Int := none
  isNormalized : Bool := false

structure EncodeHandshake where
  host : Option String
  port : Option Int
  room : Option Int

structure MultimodalItem where
  encodeHandshake : Option EncodeHandshake := none
  offsets : List (Int × Int) := []

/-- `TokenizedGenerateReqInput`; a request id that is not a single one is none. -/
structure TokenizedGenerateReqInput where
  rid : Option Nat
  inputIds : Option (List Token)
  samplingParams : SamplingParams := {}
  stream : Bool := true
  returnLogprob : Bool := false
  logprobStartLen : Int := -1
  topLogprobsNum : Int := 0
  tokenIdsLogprob : List Int := []
  multimodalInputs : Option (List MultimodalItem) := none
  inputEmbeds : Bool := false
  customLogitProcessor : Bool := false
  returnHiddenStates : Bool := false
  validationError : Option String := none
  sessionId : Option String := none
  bootstrapHost : Option String := none
  bootstrapPort : Option Int := none
  bootstrapRoom : Option Nat := none

/-! ## What the engine admits -/

structure LogprobServability where
  supportsPromptLogprobs : Bool := true
  logprobOrder : String := "torch"
  pipelineParallel : Bool := false
  disaggregated : Bool := false
  lmHeadTpUnderDp : Bool := false
  computesPromptLogprobs : Bool := true

structure IngressLimits where
  vocabSize : Int
  eosTokenIds : List Token := []
  maxModelLen : Int
  maxReqInputLen : Int
  enableOutputLogprobs : Bool := false
  requiresBootstrap : Bool := false
  multimodal : Bool := false
  grammar : Bool := false
  logprobs : LogprobServability := {}

def maxTopLogprobs : Int := 20

def maxStopTokenIds : Nat := 16

def firstReason (reasons : List (Option String)) : Option String := reasons.findSome? id

def reasonIf (p : Prop) [Decidable p] (reason : String) : Option String := if p then some reason else none

namespace LogprobServability

variable (l : LogprobServability)

def promptLogprobsRefusal (inputIds : List Token) (hasMultimodalInputs : Bool) (vocabSize : Int) : Option String :=
  firstReason
    [reasonIf (!l.supportsPromptLogprobs)
      ("logprob_start_len >= 0 (prompt logprobs) is not supported by this engine: the model narrows its prefill rows, "
        ++
        "so it cannot score every prompt position. Use logprob_start_len=-1."),
     reasonIf hasMultimodalInputs
      "logprob_start_len >= 0 (prompt logprobs) is not supported for multimodal prompts; use logprob_start_len=-1.",
     -- the source asks this of the smallest and the largest id only
     reasonIf (inputIds.any fun id => decide (id.toInt < 0) || decide (vocabSize ≤ id.toInt))
      ("prompt logprobs need every prompt token id inside the vocabulary [0, " ++ toString vocabSize ++
        "); input_ids contains one outside it.")]

def topLogprobsRefusal (topLogprobsNum : Int) (maxNewTokens : Option Int) : Option String :=
  firstReason
    [reasonIf (¬ (0 < topLogprobsNum ∧ topLogprobsNum ≤ maxTopLogprobs))
      ("top_logprobs_num must be between 1 and " ++ toString maxTopLogprobs ++ ", got " ++ toString topLogprobsNum ++
        "."),
     reasonIf (1 < maxNewTokens.getD 0)
      ("top_logprobs_num > 0 needs max_new_tokens <= 1: top-k logprobs are computed for the prompt and the token a " ++
        "prefill samples, not for decode steps."),
     reasonIf (l.logprobOrder ≠ "torch")
      ("top_logprobs_num > 0 needs --logprob-order torch, not " ++ l.logprobOrder ++ "."),
     reasonIf l.pipelineParallel "top_logprobs_num > 0 is not supported with pipeline parallelism.",
     reasonIf l.disaggregated "top_logprobs_num > 0 is not supported with disaggregated prefill and decode."]

end LogprobServability

/-! ## Sampling parameters -/

namespace SamplingParams

variable (p : SamplingParams)

def samplingEps : Rat := 1 / 1000000

def topKDisabled : Int := 1073741824

def topKFusedMax : Int := 128

def postInit : SamplingParams :=
  if p.isNormalized then p
  else
    let greedy := if p.temperature < samplingEps then { p with temperature := 1, topK := 1 } else p
    { greedy with
      stopStrs := p.stop
      stopTokenIds := (p.stopTokenIds.filter (!·.isEmpty)).map List.dedup
      topK := if greedy.topK = -1 then topKDisabled else greedy.topK }

def resolve : SamplingParams := { p.postInit with isNormalized := true }

/-- Whether a `logit_bias` key names a token of the vocabulary. -/
def inVocab (vocabSize : Int) (key : String) : Bool :=
  key.toInt?.any fun id => decide (0 ≤ id) && decide (id < vocabSize)

def budgetError (maxNewTokens : Int) : Option String :=
  firstReason
    [reasonIf (maxNewTokens < 0) ("max_new_tokens must be at least 0, got " ++ toString maxNewTokens ++ "."),
     reasonIf (maxNewTokens < p.minNewTokens)
      ("min_new_tokens must be in (0, max_new_tokens(" ++ toString maxNewTokens ++ ")], got " ++
        toString p.minNewTokens ++ ".")]

/-- `verify`: the reason the parameters are invalid. -/
def verify (vocabSize : Int) : Option String :=
  firstReason
    [reasonIf (p.temperature < 0) ("temperature must be non-negative, got " ++ toString p.temperature ++ "."),
     reasonIf (¬ (0 < p.topP ∧ p.topP ≤ 1)) ("top_p must be in (0, 1], got " ++ toString p.topP ++ "."),
     reasonIf (¬ (0 ≤ p.minP ∧ p.minP ≤ 1)) ("min_p must be in [0, 1], got " ++ toString p.minP ++ "."),
     reasonIf (p.topK < -1 ∨ p.topK = 0) ("top_k must be -1 (disable), or at least 1, got " ++ toString p.topK ++ "."),
     reasonIf (p.topK ≠ topKDisabled ∧ topKFusedMax ≤ p.topK)
      ("top_k must be < " ++ toString topKFusedMax ++ " (fused kernel limit) or -1 (disable), got " ++
        toString p.topK ++ "."),
     reasonIf (¬ (-2 ≤ p.frequencyPenalty ∧ p.frequencyPenalty ≤ 2))
      ("frequency_penalty must be in [-2, 2], got " ++ toString p.frequencyPenalty ++ "."),
     reasonIf (¬ (-2 ≤ p.presencePenalty ∧ p.presencePenalty ≤ 2))
      ("presence_penalty must be in [-2, 2], got " ++ toString p.presencePenalty ++ "."),
     reasonIf (¬ (0 < p.repetitionPenalty ∧ p.repetitionPenalty ≤ 2))
      ("repetition_penalty must be in (0, 2], got " ++ toString p.repetitionPenalty ++ "."),
     reasonIf (p.minNewTokens < 0)
      ("min_new_tokens must be in (0, max_new_tokens], got " ++ toString p.minNewTokens ++ "."),
     p.maxNewTokens.bind p.budgetError,
     (p.logitBias.find? (!inVocab vocabSize ·)).map fun key =>
      "logit_bias must has keys in [0, " ++ toString (vocabSize - 1) ++ "], got " ++ key ++ ".",
     reasonIf (p.logprobs.any (· ≠ 0))
      ("logprobs=" ++ toString (p.logprobs.getD 0) ++
        " is not supported; use logprobs=0 (the sampled token's logprob)."),
     reasonIf (1 < ([p.jsonSchema, p.regex, p.ebnf].filter Option.isSome).length)
      "Only one of regex, json_schema, or ebnf can be set."]

end SamplingParams

structure GrammarKey where
  kind : String
  source : String
  deriving DecidableEq, Repr

def GrammarKey.of (p : SamplingParams) : Option GrammarKey :=
  match p.jsonSchema, p.regex, p.ebnf with
  | some schema, _, _ => some ⟨"json", schema⟩
  | none, some regex, _ => some ⟨"regex", regex⟩
  | none, none, some ebnf => some ⟨"ebnf", ebnf⟩
  | none, none, none => p.structuralTag.map fun tag => ⟨"structural_tag", tag⟩

/-! ## Admission -/

structure EmbeddingItem where
  index : Nat
  host : String
  port : Nat
  room : Nat
  rows : Int
  deriving DecidableEq, Repr

structure BootstrapInfo where
  host : String
  port : Nat
  room : Nat
  deriving DecidableEq, Repr

def embeddingItem (index : Nat) (item : MultimodalItem) : Except String (Option EmbeddingItem) :=
  match item.encodeHandshake with
  | none => .ok none
  | some ⟨some host, some port, some room⟩ =>
    if 0 ≤ port ∧ port < 65536 ∧ 0 ≤ room ∧ room < 18446744073709551616 then
      .ok (some ⟨index, host, port.toNat, room.toNat, (item.offsets.map fun range => range.2 - range.1 + 1).sum⟩)
    else .error ("item " ++ toString index ++ "'s encode handshake is malformed")
  | some _ => .error ("item " ++ toString index ++ "'s encode handshake is malformed")

def embeddingItems (index : Nat) : List MultimodalItem → Except String (List EmbeddingItem)
  | [] => .ok []
  | item :: items => do
    let found ← embeddingItem index item
    let rest ← embeddingItems (index + 1) items
    pure (found.toList ++ rest)

namespace TokenizedGenerateReqInput

variable (request : TokenizedGenerateReqInput)

def bootstrapInfo : Option BootstrapInfo :=
  match request.bootstrapHost, request.bootstrapPort, request.bootstrapRoom with
  | some host, some port, some room => if 0 ≤ port ∧ port < 65536 then some ⟨host, port.toNat, room⟩ else none
  | _, _, _ => none

def embeddings : Except String (List EmbeddingItem) := embeddingItems 0 (request.multimodalInputs.getD [])

variable (limits : IngressLimits)

def unsupported : Option String :=
  firstReason
    [reasonIf (request.multimodalInputs.isSome ∧ ¬ limits.multimodal)
      "multimodal inputs need a multimodal model (not --language-model-only)",
     reasonIf request.inputEmbeds "input embeddings are not supported by this engine host",
     reasonIf request.customLogitProcessor "custom logit processors are not supported by this engine host",
     reasonIf request.returnHiddenStates "hidden states are not supported by this engine host"]

def logprobRefusal (inputIds : List Token) : Option String :=
  let start := request.logprobStartLen
  let inputLen : Int := inputIds.length
  firstReason
    [reasonIf (!limits.enableOutputLogprobs)
      "logprobs were requested but the server was started without --enable-output-logprobs",
     if request.topLogprobsNum ≠ 0 then
       limits.logprobs.topLogprobsRefusal request.topLogprobsNum request.samplingParams.maxNewTokens
     else none,
     reasonIf (request.tokenIdsLogprob ≠ []) "token_ids_logprob is not supported yet",
     reasonIf (start < -1) ("logprob_start_len must be -1 or >= 0, got " ++ toString start ++ "."),
     reasonIf (inputLen ≤ start)
      ("logprob_start_len (" ++ toString start ++ ") must be smaller than the prompt length (" ++ toString inputLen ++
        ")."),
     if 0 ≤ start ∧ start < inputLen - 1 then
       limits.logprobs.promptLogprobsRefusal inputIds request.multimodalInputs.isSome limits.vocabSize
     else none]

/-- `refusal`, over the resolved parameters. -/
def refusal (params : SamplingParams) : Option String :=
  firstReason
    [reasonIf (params.n ≠ 1)
      ("n=" ++ toString params.n ++ " is not supported on the msgpack wire; the frontend must fan out n > 1 itself"),
     request.unsupported limits,
     match request.inputIds with
     | none => some "a request needs prompt token ids"
     | some inputIds =>
       firstReason
         [reasonIf (limits.maxReqInputLen < inputIds.length)
           ("the prompt has " ++ toString inputIds.length ++ " tokens; this engine admits at most " ++
             toString limits.maxReqInputLen),
          if request.returnLogprob then request.logprobRefusal limits inputIds else none],
     reasonIf (¬ limits.grammar ∧
        [params.jsonSchema, params.regex, params.ebnf, params.structuralTag].any Option.isSome)
      ("Grammar-based generation (json_schema, regex, ebnf, structural_tag) is not supported when the server is " ++
        "launched with --grammar-backend none"),
     reasonIf (params.stopStrs ≠ [])
      ("stop strings are not matched on the msgpack wire; the frontend matches them and sends stop_token_ids only"),
     params.verify limits.vocabSize]

end TokenizedGenerateReqInput

structure Admission where
  rid : Nat
  spec : RequestSpec
  state : RequestState
  samplingParams : SamplingParams
  bootstrap : Option BootstrapInfo
  embeddings : List EmbeddingItem
  grammar : Option GrammarKey

inductive Admitted where
  | run (admission : Admission)
  | refused (rid : Nat) (state : RequestState)

namespace TokenizedGenerateReqInput

variable (request : TokenizedGenerateReqInput) (limits : IngressLimits)

def prompt : List Token := request.inputIds.getD []

variable (params : SamplingParams)

def stopSet : List Token :=
  if params.ignoreEos then []
  else (((params.stopTokenIds.getD []).map (BitVec.ofInt 32)) ++ limits.eosTokenIds).dedup

def budget : Int :=
  min (params.maxNewTokens.getD 1073741824) (limits.maxModelLen - 1 - request.prompt.length - 1)

/-- `logprob_start_len`, as `set_logprobs` leaves it. -/
def logprobStart : Int :=
  let last : Int := max (request.prompt.length - 1) 0
  if request.logprobStartLen < 0 then last else min request.logprobStartLen last

def wantsInputLogprobs : Bool :=
  request.returnLogprob && limits.logprobs.computesPromptLogprobs &&
    decide (request.logprobStart < request.prompt.length - 1)

def tooManyStopTokenIds : Option String :=
  let stops := stopSet limits params
  let model := (stops.filter (· ∉ (params.stopTokenIds.getD []).map (BitVec.ofInt 32))).length
  reasonIf (maxStopTokenIds < stops.length)
    ("Invalid request: " ++ toString stops.length ++ " stop token ids exceed the limit of " ++
      toString maxStopTokenIds ++
      ", which includes the model's " ++ toString model ++ " EOS ids; pass at most " ++
      toString ((maxStopTokenIds : Int) - model) ++ " other stop_token_ids")

def invalid : Option String :=
  firstReason
    [request.validationError, match request.embeddings with | .error reason => some reason | .ok _ => none,
     request.refusal limits params]

def refusalMessage : Option String :=
  firstReason
    [(request.invalid limits params).map ("Invalid request: " ++ ·),
     request.sessionId.map fun id => "Invalid request: session id " ++ id ++ " does not exist",
     reasonIf (request.wantsInputLogprobs limits ∧ limits.logprobs.lmHeadTpUnderDp)
      ("Invalid request: prompt logprobs (logprob_start_len) are not available with --lm-head-tp-size > 1 under " ++
        "attention DP"),
     tooManyStopTokenIds limits params,
     reasonIf (limits.requiresBootstrap ∧ request.bootstrapInfo = none)
      "Invalid request: a disaggregated engine needs the request's bootstrap host, port and room"]

def admittedState : RequestState where
  promptIds := request.prompt
  maxNewTokens := request.budget limits params
  stopTokenIds := stopSet limits params
  stream := request.stream
  streamInterval := params.streamInterval

def spec (rid : Nat) (params : SamplingParams) : RequestSpec where
  requestId := rid
  tokens := request.prompt
  maxNewTokens := max 0 (min (request.budget limits params) int32Max)
  maxCachedPrefixTokens := if request.wantsInputLogprobs limits then request.logprobStart else int32Max

def admitRequest : Option Admitted :=
  match request.rid with
  | none => none
  | some rid =>
    let params := request.samplingParams.resolve
    match request.refusalMessage limits params with
    | some message => some (.refused rid ((request.admittedState limits params).abort message true (some 400)))
    | none =>
      some (.run {
        rid := rid
        spec := request.spec limits rid params
        state := request.admittedState limits params
        samplingParams := { params with maxNewTokens := some (request.budget limits params) }
        bootstrap := request.bootstrapInfo
        embeddings := request.embeddings.toOption.getD []
        grammar := GrammarKey.of params })

end TokenizedGenerateReqInput

end TokenSpeed.Engine
