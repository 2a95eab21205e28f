import BoardRules.Settings.Basic
import BoardRules.Proofs.Text.Pieces

/-!
# What accepted settings satisfy

An endpoint is looked at before the slashes at its end are taken away. What is kept of it never ends
in a slash, and it is an endpoint again, one that stays as it is, unless nothing but slashes stood
behind the scheme: then the slashes of the scheme are taken away too.
-/
namespace BoardRules.Settings

open Text

/-! ## Endpoints -/

/-- What an endpoint can begin with. -/
def schemes : List (List Char) := ["https://".toList, "http://".toList]

def BeginsHttp (text : List Char) : Prop := ∃ scheme ∈ schemes, scheme <+: text

/-- Something other than slashes stands behind the scheme. -/
def NamesHost (text : List Char) : Prop :=
  ∃ scheme ∈ schemes, ∃ rest, text = scheme ++ rest ∧ ∃ c ∈ rest, c ≠ '/'

theorem isHttpUrl_iff {text : List Char} : isHttpUrl text = true ↔ BeginsHttp text := by
  simp only [isHttpUrl, Bool.or_eq_true, isSome_after?_iff, BeginsHttp, schemes, List.mem_cons,
    List.not_mem_nil, or_false, exists_eq_or_imp, exists_eq_left]

theorem endpoint_eq_ok_iff {name value kept : String} : endpoint name value = .ok kept ↔
    BeginsHttp value.toList ∧ TrimmedEnd (· == '/') value.toList kept.toList := by
  rw [endpoint, ← isHttpUrl_iff, ← dropEndWhile_eq_iff]
  by_cases accepted : isHttpUrl value.toList = true
  · rw [if_pos accepted, Except.ok.injEq, ← String.toList_inj, String.toList_ofList]
    exact (and_iff_right accepted).symm
  · rw [if_neg accepted]
    exact ⟨nofun, fun both => absurd both.1 accepted⟩

section Trimmed

variable {text core : List Char}

/-- A lead that ends in a slash is left whole exactly if it does not reach the slashes at the end. -/
theorem prefix_core_iff (trimmed : TrimmedEnd (· == '/') text core) {lead : List Char}
    (slash : lead.getLast? = some '/') :
    lead <+: core ↔ ∃ rest, text = lead ++ rest ∧ ∃ c ∈ rest, c ≠ '/' := by
  obtain ⟨⟨trail, rfl, slashes⟩, stops⟩ := trimmed
  constructor
  · rintro ⟨rest, rfl⟩
    refine ⟨rest ++ trail, List.append_assoc lead rest trail, ?_⟩
    cases last : rest.getLast? with
    | none =>
      -- The lead would be all of the core, and the core does not end in a slash.
      rw [List.getLast?_eq_none_iff] at last
      rw [last, List.append_nil] at stops
      exact absurd (stops '/' slash) (by decide)
    | some c =>
      have visible := stops c (by rw [List.getLast?_append, last]; rfl)
      exact ⟨c, List.mem_append_left trail (List.mem_of_getLast? last), by simpa using visible⟩
  · rintro ⟨rest, same, c, member, visible⟩
    rcases List.append_eq_append_iff.mp same with ⟨more, _, split⟩ | ⟨more, split, _⟩
    · have inTrail : c ∈ trail := split ▸ List.mem_append_right more member
      exact absurd (slashes c inTrail) (by simpa using visible)
    · exact ⟨more, split.symm⟩

theorem beginsHttp_core_iff (trimmed : TrimmedEnd (· == '/') text core) :
    BeginsHttp core ↔ NamesHost text := by
  have slash : ∀ scheme ∈ schemes, scheme.getLast? = some '/' := by decide
  exact exists_congr fun scheme =>
    and_congr_right fun member => prefix_core_iff trimmed (slash scheme member)

/-- Of an endpoint without a host its scheme is left, without slashes. -/
theorem core_of_not_namesHost (trimmed : TrimmedEnd (· == '/') text core)
    (begins : BeginsHttp text) (nameless : ¬NamesHost text) :
    core = "https:".toList ∨ core = "http:".toList := by
  obtain ⟨scheme, member, rest, rfl⟩ := begins
  have slashes : ∀ c ∈ rest, (c == '/') = true := by
    intro c inside
    by_contra visible
    exact nameless ⟨scheme, member, rest, rfl, c, inside, by simpa using visible⟩
  rw [← dropEndWhile_eq_iff, dropEndWhile_append scheme rest slashes] at trimmed
  simp only [schemes, List.mem_cons, List.not_mem_nil, or_false] at member
  rcases member with rfl | rfl
  · exact .inl trimmed.symm
  · exact .inr trimmed.symm

end Trimmed

/-- What is kept of an accepted endpoint. -/
structure Normalised (name given kept : String) : Prop where
  begun : BeginsHttp given.toList
  ends : kept.toList.getLast? ≠ some '/'
  begins : BeginsHttp kept.toList ↔ NamesHost given.toList
  /-- The same validation accepts what is kept, and changes nothing, exactly if a host is named. -/
  again : endpoint name kept = .ok kept ↔ NamesHost given.toList
  otherwise : ¬NamesHost given.toList →
    (kept = "https:" ∨ kept = "http:") ∧ endpoint name kept = .error (.invalidEndpoint name kept)

theorem normalised_of_endpoint {name given kept : String} (accepted : endpoint name given = .ok kept) :
    Normalised name given kept := by
  obtain ⟨begun, trimmed⟩ := endpoint_eq_ok_iff.mp accepted
  have begins := beginsHttp_core_iff trimmed
  refine ⟨begun, fun last => ?_, begins, ?_, fun nameless => ⟨?_, ?_⟩⟩
  · exact absurd (trimmed.stops '/' last) (by decide)
  · have stays : TrimmedEnd (· == '/') kept.toList kept.toList :=
      ⟨⟨[], (List.append_nil _).symm, by simp⟩, trimmed.stops⟩
    rw [endpoint_eq_ok_iff, begins]
    exact and_iff_left stays
  · simpa only [← String.toList_inj] using core_of_not_namesHost trimmed begun nameless
  · have refused : ¬isHttpUrl kept.toList = true :=
      fun accepted => nameless (begins.mp (isHttpUrl_iff.mp accepted))
    exact if_neg refused

/-! ## Settings -/

/-- Settings as they would be given. -/
def raw (settings : Settings) : RawSettings where
  listen := settings.listen
  githubToken := settings.githubToken
  webhookSecret := settings.webhookSecret
  graphqlUrl := settings.graphqlUrl
  apiUrl := settings.apiUrl
  retryDelay := settings.retryDelay

/-- What settings keep of the values as they were given. -/
structure Accepted (given : RawSettings) (settings : Settings) : Prop where
  token : ∃ c ∈ given.githubToken.toList, isBlank c = false
  secret : ∀ secret ∈ given.webhookSecret, secret ≠ ""
  graphqlUrl : endpoint "graphql-url" given.graphqlUrl = .ok settings.graphqlUrl
  apiUrl : endpoint "api-url" given.apiUrl = .ok settings.apiUrl
  unchanged : settings.raw =
    { given with graphqlUrl := settings.graphqlUrl, apiUrl := settings.apiUrl }

theorem trim_isEmpty_iff {text : List Char} :
    (trim text).isEmpty = true ↔ ∀ c ∈ text, isBlank c = true := by
  rw [List.isEmpty_iff, trim_eq_iff]
  constructor
  · intro trimmed
    obtain ⟨before, after, rfl, blankBefore, blankAfter⟩ := trimmed.around
    intro c member
    exact (List.mem_append.mp member).elim (blankBefore c) (blankAfter c)
  · intro blank
    exact ⟨⟨[], text, rfl, by simp, blank⟩, by simp, by simp⟩

theorem ofRaw_eq_ok_iff {given : RawSettings} {settings : Settings} :
    ofRaw given = .ok settings ↔ Accepted given settings := by
  have token : (∃ c ∈ given.githubToken.toList, isBlank c = false) ↔
      ¬(trim given.githubToken.toList).isEmpty = true := by
    rw [trim_isEmpty_iff]
    simp
  have secret : (∀ secret ∈ given.webhookSecret, secret ≠ "") ↔
      ¬given.webhookSecret.any String.isEmpty = true := by
    cases given.webhookSecret <;> simp
  constructor
  · intro accepted
    rw [ofRaw] at accepted
    split at accepted
    · cases accepted
    · next visible =>
      split at accepted
      · cases accepted
      · next present =>
        cases graphqlUrl : endpoint "graphql-url" given.graphqlUrl with
        | error refused => simp [graphqlUrl, bind, Except.bind] at accepted
        | ok _ =>
          cases apiUrl : endpoint "api-url" given.apiUrl with
          | error refused => simp [graphqlUrl, apiUrl, bind, Except.bind] at accepted
          | ok _ =>
            simp only [graphqlUrl, apiUrl, bind, Except.bind, pure, Except.pure,
              Except.ok.injEq] at accepted
            subst accepted
            exact ⟨token.mpr visible, secret.mpr present, graphqlUrl, apiUrl, rfl⟩
  · intro accepted
    rw [ofRaw, if_neg (token.mp accepted.token), if_neg (secret.mp accepted.secret),
      accepted.graphqlUrl, accepted.apiUrl]
    have unchanged := accepted.unchanged
    simp only [raw, RawSettings.mk.injEq] at unchanged
    obtain ⟨listen, githubToken, webhookSecret, -, -, retryDelay⟩ := unchanged
    rw [← listen, ← githubToken, ← webhookSecret, ← retryDelay]
    rfl

/-- Accepted settings have a token that is not blank, they verify signatures exactly if they have a
secret, which is not empty then, and their endpoints are normalised. Given as they are, they are
accepted without a change exactly if both endpoints named a host. -/
theorem accepted_normalised {given : RawSettings} {settings : Settings}
    (accepted : ofRaw given = .ok settings) :
    settings.raw = { given with graphqlUrl := settings.graphqlUrl, apiUrl := settings.apiUrl } ∧
    (∃ c ∈ settings.githubToken.toList, isBlank c = false) ∧
    (∀ secret ∈ settings.webhookSecret, secret ≠ "") ∧
    (settings.verifiesSignatures = true ↔ settings.webhookSecret.isSome = true) ∧
    Normalised "graphql-url" given.graphqlUrl settings.graphqlUrl ∧
    Normalised "api-url" given.apiUrl settings.apiUrl ∧
    (ofRaw settings.raw = .ok settings ↔
      NamesHost given.graphqlUrl.toList ∧ NamesHost given.apiUrl.toList) := by
  have kept := ofRaw_eq_ok_iff.mp accepted
  have graphqlUrl := normalised_of_endpoint kept.graphqlUrl
  have apiUrl := normalised_of_endpoint kept.apiUrl
  have unchanged := kept.unchanged
  simp only [raw, RawSettings.mk.injEq] at unchanged
  obtain ⟨-, githubToken, webhookSecret, -⟩ := unchanged
  have token : ∃ c ∈ settings.githubToken.toList, isBlank c = false := githubToken ▸ kept.token
  have secret : ∀ secret ∈ settings.webhookSecret, secret ≠ "" := webhookSecret ▸ kept.secret
  refine ⟨kept.unchanged, token, secret, ?_, graphqlUrl, apiUrl, ?_⟩
  · rw [verifiesSignatures]
    cases present : settings.webhookSecret with
    | none => rfl
    | some text => simpa using secret text present
  · rw [ofRaw_eq_ok_iff, ← graphqlUrl.again, ← apiUrl.again]
    constructor
    · intro again
      exact ⟨again.graphqlUrl, again.apiUrl⟩
    · intro both
      exact ⟨token, secret, both.1, both.2, rfl⟩

theorem accepted_normalised_slashes :
    let given : RawSettings := ⟨.v4 ⟨0, 0, 0, 0⟩ 3000, "token", some "secret",
      "http://localhost//", "https://api.github.com/", 1000⟩
    let settings : Settings := ⟨.v4 ⟨0, 0, 0, 0⟩ 3000, "token", some "secret",
      "http://localhost", "https://api.github.com", 1000⟩
    ofRaw given = .ok settings ∧ settings.verifiesSignatures = true ∧
      ofRaw settings.raw = .ok settings := by
  intro given settings
  have accepted : ofRaw given = .ok settings := by decide +kernel
  obtain ⟨-, -, -, verifies, -, -, again⟩ := accepted_normalised accepted
  have hosts : NamesHost given.graphqlUrl.toList ∧ NamesHost given.apiUrl.toList :=
    ⟨⟨"http://".toList, by decide, "localhost//".toList, by decide, 'l', by decide, by decide⟩,
      ⟨"https://".toList, by decide, "api.github.com/".toList, by decide, 'a', by decide, by decide⟩⟩
  exact ⟨accepted, verifies.mpr rfl, again.mpr hosts⟩

/-- A scheme alone is accepted, and what is kept of it is refused. -/
theorem accepted_schemeAlone :
    let given : RawSettings := ⟨.v4 ⟨0, 0, 0, 0⟩ 3000, "token", none,
      "http://", "https://api.github.com", 1000⟩
    ∃ settings, ofRaw given = .ok settings ∧ settings.graphqlUrl = "http:" ∧
      ¬BeginsHttp settings.graphqlUrl.toList ∧
      ofRaw settings.raw = .error (.invalidEndpoint "graphql-url" "http:") := by
  intro given
  refine ⟨⟨given.listen, "token", none, "http:", "https://api.github.com", 1000⟩, ?_, rfl, ?_, ?_⟩
  · decide +kernel
  · rw [← isHttpUrl_iff]
    decide
  · decide +kernel

end BoardRules.Settings
