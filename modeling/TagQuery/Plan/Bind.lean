import TagQuery.Plan

/-! Plans with other texts bound to their placeholders. -/
namespace TagQuery

variable {α β : Type}

/-- Takes the texts of one sub-query from the front of the parameters. -/
def SubQuery.bind? : SubQuery α → List β → Option (SubQuery β × List β)
  | .tagged _ none, space :: params => some (.tagged space none, params)
  | .tagged _ (some names), space :: params =>
    if names.length ≤ params.length then
      some (.tagged space (some (params.take names.length)), params.drop names.length)
    else none
  | .free names _, params =>
    match params.drop names.length with
    | title :: rest => some (.free (params.take names.length) title, rest)
    | [] => none
  | .tagged _ _, [] => none

def UploaderTest.bind? : UploaderTest α → List β → Option (UploaderTest β × List β)
  | .like _, pattern :: params => some (.like pattern, params)
  | .unlike _, pattern :: params => some (.unlike pattern, params)
  | .present, params => some (.present, params)
  | .absent, params => some (.absent, params)
  | _, [] => none

def bindAll {σ τ : Type} (bind? : σ → List β → Option (τ × List β)) :
    List σ → List β → Option (List τ × List β)
  | [], params => some ([], params)
  | item :: items, params =>
    match bind? item params with
    | none => none
    | some (bound, params) =>
      match bindAll bind? items params with
      | none => none
      | some (others, params) => some (bound :: others, params)

/-- The plan with its patterns replaced; the parameters have to be used up exactly. -/
def Plan.bind? (p : Plan α) (params : List β) : Option (Plan β) :=
  match bindAll SubQuery.bind? p.joined params with
  | none => none
  | some (joined, params) =>
    match bindAll SubQuery.bind? p.excluded params with
    | none => none
    | some (excluded, params) =>
      match bindAll UploaderTest.bind? p.uploaders params with
      | some (uploaders, []) => some ⟨joined, excluded, uploaders⟩
      | _ => none

end TagQuery
