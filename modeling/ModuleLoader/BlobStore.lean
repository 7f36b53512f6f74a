import ModuleLoader.Text.Character

/-! # Blobs

Compiled modules are held as blobs under URLs of the form `blob:<origin>/<number>`, where numbers
go up from one and are never used again.

* **`BlobStore.create`** stores a blob under a new URL.
* **`BlobStore.revoke`** forgets one.
* **`BlobStore.get?`** reads one that is still live. -/

namespace ModuleLoader

/-- A text with its type. -/
structure Blob where
  /-- The MIME type. -/
  mimeType : String
  /-- The text. -/
  contents : String
deriving DecidableEq, Repr, Inhabited

/-- The blobs that are live and the number of the next one. -/
structure BlobStore where
  /-- The origin named in the URLs. -/
  origin : String
  /-- The number of the next URL. -/
  next : Nat
  /-- The live blobs with their URLs, oldest first. -/
  blobs : List (String × Blob)
deriving DecidableEq, Repr, Inhabited

namespace BlobStore

/-- The store with no blobs. -/
def new (origin : String) : BlobStore := ⟨origin, 1, []⟩

/-- The URL of the blob with number `n`: at least eight hexadecimal digits behind the origin. -/
def urlOf (origin : String) (n : Nat) : String :=
  "blob:" ++ origin ++ "/" ++ String.ofList (Text.hexAtLeast n 8)

/-- Stores a blob and returns its URL. -/
def create (s : BlobStore) (contents mimeType : String) : String × BlobStore :=
  let url := urlOf s.origin s.next
  (url, { s with next := s.next + 1, blobs := s.blobs ++ [(url, ⟨mimeType, contents⟩)] })

/-- Forgets a blob; a URL that is not live is ignored. -/
def revoke (s : BlobStore) (url : String) : BlobStore :=
  { s with blobs := s.blobs.filter (·.1 ≠ url) }

/-- The live blob at a URL. -/
def get? (s : BlobStore) (url : String) : Option Blob :=
  (s.blobs.find? (·.1 = url)).map Prod.snd

/-- How many blobs are live. -/
def size (s : BlobStore) : Nat := s.blobs.length

/-- No blob is live. -/
def isEmpty (s : BlobStore) : Bool := s.blobs.isEmpty

/-- Nothing is live at the start. -/
@[simp] theorem get?_new (origin url : String) : (new origin).get? url = none := rfl

/-- A revoked URL is not live. -/
theorem get?_revoke_self (s : BlobStore) (url : String) : (s.revoke url).get? url = none := by
  simp [get?, revoke, List.find?_filter]

/-- Revoking one URL leaves the others. -/
theorem get?_revoke_of_ne (s : BlobStore) (url other : String) (h : other ≠ url) :
    (s.revoke url).get? other = s.get? other := by
  simp only [get?, revoke, List.find?_filter]
  congr 2
  funext e
  by_cases he : e.1 = other <;> simp [he, h]

end BlobStore

end ModuleLoader
