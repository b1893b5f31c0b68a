import LiveQuery.Proofs.Request.BaseUrl

/-!
# Where a base URL and a path are joined

A client keeps the longest beginning of its base URL that does not end in a slash
(`Client.longest_baseUrl`), so slashes at the end of the base URL make no difference, and every
slash at the joint of a URL comes from the path. `Client.request_ofUrl` puts this together for the
requests that are built.
-/

namespace LiveQuery.Client

variable {text p : List Char}

/-! ## The longest beginning without a slash at its end -/

/-- The text does not end in a slash. -/
def Unslashed (text : List Char) : Prop := text.getLast? ≠ some '/'

/-- Of all beginnings of a text that do not end in a slash, the longest one. -/
structure IsLongest (kept text : List Char) : Prop where
  isPrefix : kept <+: text
  unslashed : Unslashed kept
  longest : ∀ p, p <+: text → Unslashed p → p <+: kept

theorem isSlash_iff {c : Char} : isSlash c = true ↔ c = '/' := decide_eq_true_iff

theorem unslashed_rdropWhile (text : List Char) : Unslashed (text.rdropWhile isSlash) := by
  intro hlast
  by_cases hnil : text.rdropWhile isSlash = []
  · rw [hnil] at hlast
    cases hlast
  · rw [List.getLast?_eq_some_getLast hnil] at hlast
    apply List.rdropWhile_last_not isSlash text hnil
    rw [Option.some.inj hlast]
    rfl

/-- No beginning without a slash at its end reaches into the slashes at the end. -/
theorem prefix_rdropWhile (hp : p <+: text) (hlast : Unslashed p) :
    p <+: text.rdropWhile isSlash := by
  induction text using List.reverseRecOn with
  | nil => exact hp
  | append_singleton before c ih =>
    by_cases hc : isSlash c = true
    · rw [List.rdropWhile_concat_pos isSlash before c hc]
      rcases List.prefix_concat_iff.mp hp with rfl | hp
      · exact absurd (by rw [List.getLast?_concat, isSlash_iff.mp hc]) hlast
      · exact ih hp
    · rw [List.rdropWhile_concat_neg isSlash before c hc]
      exact hp

theorem isLongest_rdropWhile (text : List Char) : IsLongest (text.rdropWhile isSlash) text where
  isPrefix := List.rdropWhile_prefix isSlash text
  unslashed := unslashed_rdropWhile text
  longest _ := prefix_rdropWhile

/-- There is only one. -/
theorem IsLongest.unique {kept kept' : List Char} (h : IsLongest kept text)
    (h' : IsLongest kept' text) : kept = kept' := by
  have hle : kept <+: kept' := h'.longest kept h.isPrefix h.unslashed
  have hge : kept' <+: kept := h.longest kept' h'.isPrefix h'.unslashed
  exact hle.eq_of_length_le hge.length_le

theorem isLongest_self (h : Unslashed text) : IsLongest text text :=
  ⟨List.prefix_refl text, h, fun _ hp _ => hp⟩

theorem rdropWhile_append_replicate (text : List Char) (n : Nat) :
    (text ++ List.replicate n '/').rdropWhile isSlash = text.rdropWhile isSlash := by
  induction n with
  | zero => rw [List.replicate_zero, List.append_nil]
  | succ n ih =>
    rw [List.replicate_succ', ← List.append_assoc, List.rdropWhile_concat_pos _ _ _ rfl, ih]

/-! ## Requests -/

theorem longest_baseUrl (url : String) : IsLongest (ofUrl url).baseUrl.toList url.toList := by
  show IsLongest (trimSlashes url).toList url.toList
  rw [toList_trimSlashes]
  exact isLongest_rdropWhile url.toList

/-- A base URL without a slash at its end is kept as it is. -/
theorem ofUrl_of_unslashed {url : String} (h : Unslashed url.toList) : ofUrl url = ⟨url⟩ := by
  have hkept : (ofUrl url).baseUrl.toList = url.toList :=
    (longest_baseUrl url).unique (isLongest_self h)
  show Client.mk (ofUrl url).baseUrl = ⟨url⟩
  rw [String.toList_inj.mp hkept]

theorem ofUrl_append_slashes (url : String) (n : Nat) :
    ofUrl (url ++ String.ofList (List.replicate n '/')) = ofUrl url := by
  show Client.mk (trimSlashes _) = Client.mk (trimSlashes _)
  rw [Client.mk.injEq, ← String.toList_inj, toList_trimSlashes, toList_trimSlashes,
    String.toList_append, String.toList_ofList, rdropWhile_append_replicate]

/-- The slashes on both sides of a place in a text. -/
def slashesAt (text : List Char) (place : Nat) : List Char :=
  (text.take place).rtakeWhile isSlash ++ (text.drop place).takeWhile isSlash

/-- Where nothing in front of the joint ends in a slash, all slashes there are from behind it. -/
theorem slashesAt_append {before : List Char} (h : Unslashed before) (behind : List Char) :
    slashesAt (before ++ behind) before.length = behind.takeWhile isSlash := by
  have hnone : before.rtakeWhile isSlash = [] := by
    rw [List.rtakeWhile_eq_nil_iff]
    intro hne hlast
    apply h
    rw [List.getLast?_eq_some_getLast hne, isSlash_iff.mp hlast]
  rw [slashesAt, List.take_left, List.drop_left, hnone, List.nil_append]

/-- Slashes at the end of a base URL make no difference to any request. What is kept of the base
URL is its longest beginning that does not end in a slash, and a client of that is the same client.
The URL of a request is this beginning and the path, and has at the joint just the slashes that the
path starts with, so one if the path starts with one. The filter is the body, unless the method is
GET. -/
theorem request_ofUrl (url : String) (e : Endpoint) (filter : Filter) :
    (∀ n, (ofUrl (url ++ String.ofList (List.replicate n '/'))).request e filter =
      (ofUrl url).request e filter) ∧
    IsLongest (ofUrl url).baseUrl.toList url.toList ∧
    ofUrl (ofUrl url).baseUrl = ofUrl url ∧
    ((ofUrl url).request e filter).url = (ofUrl url).baseUrl ++ e.path ∧
    slashesAt ((ofUrl url).request e filter).url.toList (ofUrl url).baseUrl.toList.length =
      e.path.toList.takeWhile isSlash ∧
    ((ofUrl url).request e filter).method = e.method ∧
    ((ofUrl url).request e filter).body = if e.method = .get then none else some filter.toJson := by
  have hlongest := longest_baseUrl url
  refine ⟨fun n => ?_, hlongest, ?_, rfl, ?_, rfl, ?_⟩
  · rw [ofUrl_append_slashes]
  · exact ofUrl_of_unslashed hlongest.unslashed
  · have hjoin : ((ofUrl url).request e filter).url.toList =
        (ofUrl url).baseUrl.toList ++ e.path.toList := String.toList_append
    rw [hjoin]
    exact slashesAt_append hlongest.unslashed e.path.toList
  · show (if e.method.hasBody then some filter.toJson else none) = _
    cases e.method with
    | get => rfl
    | post => rfl

/-- A base URL of nothing but slashes is dropped altogether. -/
example : ((ofUrl "///").request EndpointName.flow.endpoint .empty).url = "/flows/" := by decide

end LiveQuery.Client
