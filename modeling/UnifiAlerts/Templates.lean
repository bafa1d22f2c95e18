import Mathlib.Data.List.TakeWhile
import UnifiAlerts.Lib.Dict
import UnifiAlerts.Lib.Template
import UnifiAlerts.Models

/-!
# Message templates are substituted once

`renderMessageRaw` is Python's `re.sub` with the pattern `\{([^{}]+)\}`,
which tries to match a token at each position in turn. It computes the
one scan of `Lib.Template` between braces (`renderMessageRaw_eq`), and
with it gets the two equations that determine it: a token is replaced
where it stands, and a text without tokens stays.

One scan means that what a token is replaced by is not looked at again:
a value that looks like a token stays as it is. Both equations are for
every template and every list of parameters, and the value of a name
does not depend on the order of the parameters as long as their names
are distinct (`shown_perm`).
-/

namespace UnifiAlerts

open Py Lib

/-- What stands for parameter `key`: of an object its name, else its id, else the
key itself. -/
def shownValue (text : Text) (key : String) : Json → String
  | .obj value =>
    if (JsonObj.get value "name").truthy then text.str (JsonObj.get value "name")
    else if (JsonObj.get value "id").truthy then text.str (JsonObj.get value "id")
    else key
  | value => text.str value

theorem displayValue_eq (text : Text) (key : String) (value : Json) :
    displayValue text key value = shownValue text key value := by
  cases value with
  | obj o =>
      simp only [displayValue, shownValue, Json.or]
      by_cases hname : (JsonObj.get o "name").truthy = true
      · simp [hname]
      · by_cases hid : (JsonObj.get o "id").truthy = true <;> simp [hname, hid]
  | _ => rfl

/-! ## The regular expression -/

/-- A non-empty token name without braces. -/
def IsTokenName (t : String) : Prop := Template.IsToken '{' '}' t.toList

/-- Where the run of a possible token ends. -/
theorem span_braces (cs : List Char) :
    let parts := cs.span fun c => c != '{' && c != '}'
    parts.1 ++ parts.2 = cs ∧ '{' ∉ parts.1 ∧ '}' ∉ parts.1 ∧
      (parts.2 = [] ∨ parts.2.head? = some '{' ∨ parts.2.head? = some '}') := by
  have hrun : ∀ c ∈ cs.takeWhile fun c => c != '{' && c != '}', c ≠ '{' ∧ c ≠ '}' := by
    intro c hc
    simpa using List.mem_takeWhile_imp hc
  intro parts
  have hparts : parts = (cs.takeWhile fun c => c != '{' && c != '}',
    cs.dropWhile fun c => c != '{' && c != '}') := List.span_eq_takeWhile_dropWhile ..
  rw [hparts]
  refine ⟨List.takeWhile_append_dropWhile, fun h => (hrun _ h).1 rfl, fun h => (hrun _ h).2 rfl, ?_⟩
  cases hrest : cs.dropWhile fun c => c != '{' && c != '}' with
  | nil => exact Or.inl rfl
  | cons c rest =>
      right
      have hhead := List.head?_dropWhile_not (fun c => c != '{' && c != '}') cs
      simp only [hrest, List.head?_cons] at hhead
      by_cases hc : c = '{'
      · simp [hc]
      · right
        simpa [hc] using hhead

theorem matchToken_some {cs rest : List Char} {token : String}
    (h : matchToken cs = some (token, rest)) :
    IsTokenName token ∧ cs = '{' :: (token.toList ++ '}' :: rest) := by
  unfold matchToken at h
  split at h
  · rename_i cs'
    obtain ⟨hcs, hopen, hclose, -⟩ := span_braces cs'
    split at h
    · rename_i t ts rest' hspan
      rw [hspan] at hcs hopen hclose
      obtain ⟨rfl, rfl⟩ := Prod.mk.injEq .. |>.mp (Option.some.inj h)
      rw [IsTokenName, String.toList_ofList]
      exact ⟨⟨List.cons_ne_nil _ _, hopen, hclose⟩, by rw [← hcs]⟩
    · cases h
  · cases h

/-- Where no token starts, the scan reads one character. -/
theorem matchToken_none {c : Char} {cs : List Char} (h : matchToken (c :: cs) = none) :
    Template.scan '{' '}' none (c :: cs) = .char c :: Template.scan '{' '}' none cs := by
  by_cases hc : c = '{'
  · subst hc
    obtain ⟨hcs, hopen, hclose, hend⟩ := span_braces cs
    rw [← hcs]
    refine Template.scan_unclosed hopen hclose (by decide) ?_
    rcases hend with hnil | hopening | hclosing
    · exact Or.inr (Or.inl hnil)
    · exact Or.inr (Or.inr hopening)
    · refine Or.inl ⟨?_, hclosing⟩
      obtain ⟨rest, hrest⟩ := List.head?_eq_some_iff.mp hclosing
      cases hrun : (cs.span fun c => c != '{' && c != '}').1 with
      | nil => rfl
      | cons t ts =>
          -- a closed run would have matched
          have hspan : (cs.span fun c => c != '{' && c != '}') = (t :: ts, '}' :: rest) :=
            Prod.ext hrun hrest
          unfold matchToken at h
          simp only [hspan] at h
          cases h
  · rw [Template.scan, if_neg hc]

/-- With fuel for the whole text, the scan of `re.sub` is the scan. -/
theorem subTokens_eq (replace : String → Option String) : ∀ (fuel : Nat) (cs : List Char),
    cs.length ≤ fuel → subTokens replace fuel cs =
      Template.substitute '{' '}' (fun t => (replace (String.ofList t)).map String.toList) cs
  | 0, cs, h => by
      obtain rfl := List.length_eq_zero_iff.mp (Nat.le_zero.mp h)
      rfl
  | fuel + 1, [], _ => rfl
  | fuel + 1, c :: cs, h => by
      have ih := subTokens_eq replace fuel
      rw [List.length_cons] at h
      unfold subTokens
      cases hmatch : matchToken (c :: cs) with
      | none =>
          dsimp only
          rw [ih cs (by omega)]
          unfold Template.substitute
          rw [matchToken_none hmatch]
          rfl
      | some found =>
          obtain ⟨token, rest⟩ := found
          obtain ⟨htoken, hcs⟩ := matchToken_some hmatch
          have hlen := congrArg List.length hcs
          simp only [List.length_cons, List.length_append] at hlen
          dsimp only
          rw [ih rest (by omega), hcs]
          have hsub := Template.substitute_token
            (fun t => (replace (String.ofList t)).map String.toList) htoken (by decide) [] rest
          rw [List.nil_append] at hsub
          rw [hsub, String.ofList_toList]
          rfl

/-! ## Rendering -/

/-- What `parameters` put in the place of a token. -/
def shown (text : Text) (parameters : JsonObj) (token : String) : Option String :=
  (parameters.lookup token).map (shownValue text token)

/-- The template with its tokens substituted in one scan. -/
def rendered (value : String → Option String) (template : String) : String :=
  String.ofList (Template.substitute '{' '}'
    (fun t => (value (String.ofList t)).map String.toList) template.toList)

theorem renderMessageRaw_eq (text : Text) (messageRaw : String) (parameters : JsonObj) :
    renderMessageRaw text messageRaw parameters = rendered (shown text parameters) messageRaw := by
  have hdisplay : ∀ token, (parameters.lookup token).map (displayValue text token) =
      shown text parameters token := fun token => by
    rw [shown, funext (displayValue_eq text token)]
  unfold renderMessageRaw rendered
  simp only [hdisplay]
  rw [subTokens_eq _ _ _ le_rfl]

theorem rendered_token (value : String → Option String) {token : String}
    (h : IsTokenName token) (pre post : String) :
    rendered value (pre ++ "\x7b" ++ token ++ "\x7d" ++ post) =
      rendered value pre ++ (value token).getD ("\x7b" ++ token ++ "\x7d") ++
        rendered value post := by
  have hsub := Template.substitute_token
    (fun t => (value (String.ofList t)).map String.toList) h (by decide) pre.toList post.toList
  unfold rendered
  apply String.toList_inj.mp
  simp only [String.toList_append, String.toList_ofList, List.append_assoc,
    String.ofList_toList] at hsub ⊢
  rw [show "\x7b".toList = ['{'] from rfl, show "\x7d".toList = ['}'] from rfl,
    List.singleton_append, List.singleton_append, hsub]
  cases value token with
  | none => simp
  | some shown => rfl

theorem rendered_plain (value : String → Option String) {template : String}
    (h : Template.Plain '{' '}' template.toList) : rendered value template = template := by
  unfold rendered
  rw [Template.substitute_of_plain _ h, String.ofList_toList]

theorem shown_perm (text : Text) {parameters parameters' : JsonObj}
    (hperm : parameters.Perm parameters') (hkeys : (parameters.map Prod.fst).Nodup)
    (token : String) : shown text parameters token = shown text parameters' token := by
  unfold shown
  rw [Dict.lookup_perm hperm hkeys]

/-- Rendering is the one scan; it replaces each token of the template where it
stands, by what the parameters show for it or by itself; it keeps a text without
tokens; and it does not depend on the order of the parameters. -/
theorem message_rendered_once (text : Text) (parameters : JsonObj)
    (hkeys : (parameters.map Prod.fst).Nodup) :
    let render := fun template => renderMessageRaw text template parameters
    (∀ template, render template = rendered (shown text parameters) template) ∧
    (∀ pre token post, IsTokenName token → render (pre ++ "\x7b" ++ token ++ "\x7d" ++ post) =
      render pre ++ (shown text parameters token).getD ("\x7b" ++ token ++ "\x7d") ++ render post) ∧
    (∀ template, Template.Plain '{' '}' template.toList → render template = template) ∧
    ∀ parameters', parameters.Perm parameters' → ∀ template,
      renderMessageRaw text template parameters' = render template := by
  intro render
  have hrender : ∀ template, render template = rendered (shown text parameters) template :=
    fun template => renderMessageRaw_eq text template parameters
  refine ⟨hrender, fun pre token post htoken => ?_, fun template hplain => ?_,
    fun parameters' hperm template => ?_⟩
  · rw [hrender, hrender, hrender, rendered_token _ htoken]
  · rw [hrender, rendered_plain _ hplain]
  · rw [hrender, renderMessageRaw_eq, funext (shown_perm text hperm hkeys)]

/-- A value that looks like a token stays, and so do unbalanced and empty braces. -/
theorem message_rendered_once_lookalike :
    renderMessageRaw (.counting fun _ => none) "\x7bIP\x7d to \x7b\x7bDST\x7d\x7d \x7b\x7d \x7bIP"
      [("IP", .obj [("name", .str "\x7bDST\x7d")]), ("DST", .int 7)] =
      "\x7bDST\x7d to \x7b7\x7d \x7b\x7d \x7bIP" := by
  have hkeys : ([("IP", Json.obj [("name", .str "\x7bDST\x7d")]), ("DST", .int 7)].map
      Prod.fst).Nodup := by
    decide
  refine ((message_rendered_once (.counting fun _ => none) _ hkeys).1 _).trans ?_
  decide +kernel

end UnifiAlerts
