import Pulse.Lib.Urls

/-!
# Storage drivers

`storage/drivers/s3.py` and `storage/drivers/azure.py`: the URI that `list` gives an object, and
the object that is asked for when the URI comes back. The S3 driver takes a URI apart as a URL, so
that characters which mean something there are lost. The Azure driver splits at the first slash,
but presigns a URL with the name of the blob as it is.
-/

namespace Pulse.Storage

open Lib

/-- The characters of the names of buckets and containers. -/
def isNameChar (c : Char) : Bool := c.isAlphanum || c = '-' || c = '.' || c = '_' || c = '$'

/-- The name of a bucket or of a container. -/
structure Name where
  text : List Char
  chars : ∀ c ∈ text, isNameChar c = true

/-! ### S3 -/

namespace S3

/-- `f"s3://{bucket}/{obj['Key']}"` -/
def uri (bucket : Name) (key : List Char) : List Char :=
  ['s', '3'] ++ ':' :: '/' :: '/' :: (bucket.text ++ '/' :: key)

/-- `list`, of the keys that the pages have. -/
def list (bucket : Name) (keys : List (List Char)) : List (List Char) := keys.map (uri bucket)

/-- `_parse` -/
def parse (uri : List Char) : List Char × List Char :=
  let p := urlsplit uri
  (p.netloc, p.path.dropWhile (· = '/'))

end S3

/-! ### Azure -/

namespace Azure

/-- `"azblob://"` -/
def uriPrefix : List Char := ['a', 'z', 'b', 'l', 'o', 'b', ':', '/', '/']

/-- `f"azblob://{container}/{b.name}"` -/
def uri (container : Name) (blob : List Char) : List Char :=
  uriPrefix ++ (container.text ++ '/' :: blob)

/-- `list`, of the names that the pages have. -/
def list (container : Name) (blobs : List (List Char)) : List (List Char) :=
  blobs.map (uri container)

/-- `s.removeprefix(p)` -/
def removePrefix (p s : List Char) : List Char := if p <+: s then s.drop p.length else s

/-- `_parse` -/
def parse (uri : List Char) : List Char × List Char :=
  splitFirst '/' (removePrefix uriPrefix uri)

/-- `_account_url`: a scheme, a host and perhaps a path. -/
structure AccountUrl where
  scheme : List Char
  host : List Char
  path : List Char
  isScheme : isScheme scheme = true
  hostChars : ∀ c ∈ host, endsNetloc c = false ∧ isRemoved c = false
  pathChars : ∀ c ∈ path, isPlain c = true ∧ c ≠ '%'
  /-- The path is empty, or begins with a slash. -/
  head : path = [] ∨ path.head? = some '/'

def AccountUrl.text (a : AccountUrl) : List Char :=
  a.scheme ++ ':' :: '/' :: '/' :: (a.host ++ a.path)

/-- What `presign` needs of the credentials: `generate` is `generate_blob_sas`. -/
structure Creds where
  account : AccountUrl
  sasToken : List Char
  generate : List Char → List Char → List Char

/-- `presign` -/
def presign (creds : Creds) (uri : List Char) : List Char :=
  let (container, blob) := parse uri
  let base := creds.account.text ++ '/' :: (container ++ '/' :: blob)
  if creds.sasToken = [] then base ++ '?' :: creds.generate container blob
  else base ++ '?' :: creds.sasToken.dropWhile (· = '?')

/-- A URL asks for a blob if its path, with the escapes read, is that of the blob. -/
def Addresses (a : AccountUrl) (url : List Char) (container : Name) (blob : List Char) : Prop :=
  octets (urlsplit url).path = utf8 (a.path ++ '/' :: (container.text ++ '/' :: blob))

end Azure

/-! ### The two drivers -/

inductive Driver
  | s3 | azure
  deriving DecidableEq

namespace Driver

/-- The URI that `list` gives an object. -/
def uri : Driver → Name → List Char → List Char
  | .s3 => S3.uri
  | .azure => Azure.uri

/-- `_parse`, of what `fetch_bytes` asks for. -/
def parse : Driver → List Char → List Char × List Char
  | .s3 => S3.parse
  | .azure => Azure.parse

/-- The URL that `presign` gives is that of the object; S3's client makes it of the parsed URI. -/
def Presigns (d : Driver) (creds : Azure.Creds) (name : Name) (key : List Char) : Prop :=
  match d with
  | .s3 => S3.parse (S3.uri name key) = (name.text, key)
  | .azure => Azure.Addresses creds.account (Azure.presign creds (Azure.uri name key)) name key

/-- The keys that a driver finds again. -/
def Finds (d : Driver) (key : List Char) : Prop :=
  (∀ c ∈ key, isPlain c = true) ∧
    match d with
    | .s3 => key.head? ≠ some '/'
    | .azure => ¬Escapes key

end Driver

lemma Name.netloc (name : Name) :
    ∀ c ∈ name.text, endsNetloc c = false ∧ isRemoved c = false := by
  intro c hc
  have hchar := name.chars c hc
  simp only [endsNetloc, isRemoved, Bool.or_eq_false_iff, decide_eq_false_iff_not]
  refine ⟨⟨⟨?_, ?_⟩, ?_⟩, ⟨?_, ?_⟩, ?_⟩ <;> rintro rfl <;> exact absurd hchar (by decide)

lemma Name.plain (name : Name) : ∀ c ∈ name.text, isPlain c = true ∧ c ≠ '%' := by
  intro c hc
  have hchar := name.chars c hc
  simp only [isPlain, isRemoved, endsPath, Bool.and_eq_true, Bool.not_eq_true',
    Bool.or_eq_false_iff, decide_eq_false_iff_not, ne_eq]
  refine ⟨⟨⟨⟨?_, ?_⟩, ?_⟩, ?_, ?_⟩, ?_⟩ <;> rintro rfl <;> exact absurd hchar (by decide)

lemma S3.parse_uri (bucket : Name) (key : List Char) :
    S3.parse (S3.uri bucket key) = (bucket.text, (plainPath key).dropWhile (· = '/')) := by
  have hscheme : isScheme ['s', '3'] = true := by decide
  obtain ⟨hnetloc, hpath⟩ := urlsplit_parts hscheme bucket.netloc key
  have hplain : ∀ c ∈ ['/'], isPlain c = true := List.forall_mem_singleton.2 (by decide)
  have hslash : plainPath ('/' :: key) = '/' :: plainPath key := plainPath_append hplain key
  rw [S3.parse, S3.uri, hnetloc, hpath, hslash, List.dropWhile_cons_of_pos (by decide)]

lemma S3.parse_uri_iff (bucket : Name) (key : List Char) :
    S3.parse (S3.uri bucket key) = (bucket.text, key) ↔ Driver.s3.Finds key := by
  rw [S3.parse_uri, Prod.mk.injEq, and_iff_right rfl]
  constructor
  · intro h
    have hplain : plainPath key = key := by
      refine (plainPath_sublist key).eq_of_length_le ?_
      have hlength := (List.dropWhile_sublist (· = '/') (l := plainPath key)).length_le
      rwa [h] at hlength
    rw [hplain] at h
    refine ⟨plainPath_eq_iff.1 hplain, ?_⟩
    cases key with
    | nil => simp
    | cons c key =>
      have hhead := List.dropWhile_eq_self_iff.1 h (by simp)
      simpa using hhead
  · rintro ⟨hplain, hhead⟩
    rw [plainPath_eq_iff.2 hplain, List.dropWhile_eq_self_iff]
    cases key with
    | nil => simp
    | cons c key => simpa using hhead

lemma Azure.removePrefix_append (p s : List Char) : Azure.removePrefix p (p ++ s) = s := by
  rw [Azure.removePrefix, if_pos (List.prefix_append p s), List.drop_left]

lemma Azure.parse_uri (container : Name) (blob : List Char) :
    Azure.parse (Azure.uri container blob) = (container.text, blob) := by
  have hname : ∀ c ∈ container.text, decide (c ≠ '/') = true := by
    intro c hc
    have hends := (container.netloc c hc).1
    rw [decide_eq_true_eq]
    rintro rfl
    exact absurd hends (by decide)
  rw [Azure.parse, Azure.uri, Azure.removePrefix_append, splitFirst,
    List.takeWhile_append_of_pos hname,
    List.dropWhile_append_of_pos hname, List.takeWhile_cons_of_neg (by decide),
    List.dropWhile_cons_of_neg (by decide), List.append_nil]
  rfl

lemma plainPath_object (name : Name) (key : List Char) :
    plainPath ('/' :: (name.text ++ '/' :: key)) = '/' :: (name.text ++ '/' :: plainPath key) := by
  have hplain : ∀ c ∈ '/' :: (name.text ++ ['/']), isPlain c = true := by
    intro c hc
    simp only [List.mem_cons, List.mem_append, List.not_mem_nil, or_false] at hc
    obtain rfl | hc | rfl := hc
    · decide
    · exact (name.plain c hc).1
    · decide
  simpa using plainPath_append hplain key

/-- The path of a presigned URL is that of the blob, as far as a path goes. -/
lemma Azure.presign_path (creds : Azure.Creds) (container : Name) (blob : List Char) :
    (urlsplit (Azure.presign creds (Azure.uri container blob))).path =
      creds.account.path ++ '/' :: (container.text ++ '/' :: plainPath blob) := by
  obtain ⟨rest, hrest⟩ : ∃ rest,
      creds.account.path ++ '/' :: (container.text ++ '/' :: blob) = '/' :: rest := by
    cases hempty : creds.account.path with
    | nil => exact ⟨_, rfl⟩
    | cons c cs =>
      have hhead := creds.account.head.resolve_left (by simp [hempty])
      rw [hempty, List.head?_cons, Option.some.injEq] at hhead
      exact ⟨_, by rw [hhead, List.cons_append]⟩
  have hquery (query : List Char) :
      (urlsplit (creds.account.text ++ '/' :: (container.text ++ '/' :: blob) ++
        '?' :: query)).path =
          creds.account.path ++ '/' :: (container.text ++ '/' :: plainPath blob) := by
    have htext : creds.account.text ++ '/' :: (container.text ++ '/' :: blob) ++ '?' :: query =
        creds.account.scheme ++ ':' :: '/' :: '/' ::
          (creds.account.host ++ '/' :: (rest ++ '?' :: query)) := by
      have hcons : '/' :: (rest ++ '?' :: query) = ('/' :: rest) ++ '?' :: query := rfl
      rw [hcons, ← hrest, AccountUrl.text]
      simp only [List.append_assoc, List.cons_append]
    have hsplit := (urlsplit_parts creds.account.isScheme creds.account.hostChars
      (rest ++ '?' :: query)).2
    rw [htext, hsplit, ← List.cons_append, plainPath_append_query, ← hrest,
      plainPath_append fun c hc => (creds.account.pathChars c hc).1, plainPath_object]
  unfold Azure.presign
  rw [Azure.parse_uri]
  dsimp only
  split
  · exact hquery _
  · exact hquery _

lemma Azure.presigns_iff (creds : Azure.Creds) (container : Name) (blob : List Char) :
    Azure.Addresses creds.account (Azure.presign creds (Azure.uri container blob)) container blob ↔
      Driver.azure.Finds blob := by
  have hpercent : '%' ∉ creds.account.path ++ '/' :: (container.text ++ ['/']) := by
    intro hmem
    simp only [List.mem_append, List.mem_cons, List.not_mem_nil, or_false] at hmem
    obtain hmem | hmem | hmem | hmem := hmem
    · exact (creds.account.pathChars _ hmem).2 rfl
    · exact absurd hmem (by decide)
    · exact (container.plain _ hmem).2 rfl
    · exact absurd hmem (by decide)
  have hsplit (key : List Char) : creds.account.path ++ '/' :: (container.text ++ '/' :: key) =
      creds.account.path ++ '/' :: (container.text ++ ['/']) ++ key := by
    simp only [List.append_assoc, List.cons_append, List.nil_append]
  rw [Azure.Addresses, Azure.presign_path, hsplit (plainPath blob), hsplit blob, octets_append hpercent,
    utf8_append _ blob, List.append_right_inj]
  constructor
  · intro h
    have hle := length_octets_le (plainPath blob)
    rw [h] at hle
    have hplain := eq_of_sublist_of_length_utf8 (plainPath_sublist blob) hle
    rw [hplain] at h
    exact ⟨plainPath_eq_iff.1 hplain, octets_eq_iff.1 h⟩
  · rintro ⟨hplain, hescapes⟩
    rw [plainPath_eq_iff.2 hplain]
    exact octets_eq_iff.2 hescapes

/-- A listed object is found again, by its URI and by the URL that is presigned, exactly if its key
stands for itself there. -/
theorem listed_object_iff (d : Driver) (creds : Azure.Creds) (name : Name) (key : List Char) :
    (d.parse (d.uri name key) = (name.text, key) ∧ d.Presigns creds name key) ∧
        (∀ key', d.uri name key' = d.uri name key → key' = key) ↔
      d.Finds key := by
  have hdistinct : ∀ key', d.uri name key' = d.uri name key → key' = key := by
    intro key' h
    cases d <;> simpa [Driver.uri, S3.uri, Azure.uri] using h
  rw [and_iff_left hdistinct]
  cases d with
  | s3 => exact and_self_iff.trans (S3.parse_uri_iff name key)
  | azure => exact (and_iff_right (Azure.parse_uri name key)).trans (Azure.presigns_iff creds name key)

/-- An account with a token. -/
def exampleCreds : Azure.Creds where
  account :=
    { scheme := ['h', 't', 't', 'p', 's']
      host := ['a']
      path := []
      isScheme := by decide
      hostChars := List.forall_mem_singleton.2 (by decide)
      pathChars := nofun
      head := .inl rfl }
  sasToken := ['s']
  generate _ _ := []

def exampleName : Name where
  text := ['b']
  chars := List.forall_mem_singleton.2 (by decide)

/-- The part of the key after the question mark is taken for a query. -/
theorem question_mark_lost :
    ¬((Driver.s3.parse (Driver.s3.uri exampleName ['a', '?', 'b']) =
          (exampleName.text, ['a', '?', 'b']) ∧
        Driver.s3.Presigns exampleCreds exampleName ['a', '?', 'b']) ∧
      ∀ key', Driver.s3.uri exampleName key' = Driver.s3.uri exampleName ['a', '?', 'b'] →
        key' = ['a', '?', 'b']) := by
  rintro ⟨⟨h, -⟩, -⟩
  have hplain := ((S3.parse_uri_iff _ _).1 h).1 '?' (by simp)
  exact absurd hplain (by decide)

end Pulse.Storage
