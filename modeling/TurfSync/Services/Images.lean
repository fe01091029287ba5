import TurfSync.Services.Pages

/-! `UploadController.uploadTurfImage` and `deleteTurfImage`, statement by statement. A
deletion reads the images of the turf, has Cloudinary destroy the asset, and writes the
images it has read without the one; an upload pushes its image onto those of the row. The
history has an entry for every statement that writes, for every image list that is read and
for every upload, and no statement reads it. -/

namespace TurfSync.Images

open Txn
open Pages (File Uploaded)

/-- What Cloudinary answers to its `n`-th upload. -/
structure Config where
  uploaded : ℕ → Uploaded

inductive Call where
  | uploadTurfImage (turfId : TurfId) (file : File)
  | deleteTurfImage (turfId : TurfId) (imageUrl : String)
  deriving DecidableEq, Repr

inductive Reply where
  | imageUrl (url : String)
  | success
  deriving DecidableEq, Repr

/-- `uploadStream` is given the folder of the turf; the transformations are the same for
every upload. -/
inductive Stmt where
  | uploadStream (folder : String)
  | destroy (publicId : String)
  | findImages (id : TurfId)
  | pushImage (id : TurfId) (imageUrl : String)
  | setImages (id : TurfId) (images : List String)
  deriving DecidableEq, Repr

@[reducible] def Stmt.Reply : Stmt → Type
  | .uploadStream _ => Uploaded
  | .findImages _ => Option (List String)
  | .destroy _ | .pushImage _ _ | .setImages _ _ => Unit

/-- `uploaded` and `seen` are the traces of an upload and of a read, and change no row. -/
inductive Write where
  | uploaded (n : ℕ)
  | seen (id : TurfId) (images : List String)
  | push (id : TurfId) (imageUrl : String) (now : Time)
  | set (id : TurfId) (images : List String) (now : Time)
  deriving DecidableEq, Repr

/-- The images of a turf. -/
def imagesOf (turfs : List Turf) (id : TurfId) : Option (List String) :=
  (Rows.lookup (·.id) id turfs).map (·.images)

def Write.apply (turfs : List Turf) : Write → List Turf
  | .uploaded _ | .seen _ _ => turfs
  | .push id imageUrl now => Rows.update (·.id) [id]
      (fun t => { t with images := t.images ++ [imageUrl], updatedAt := now }) turfs
  | .set id images now => Rows.update (·.id) [id]
      (fun t => { t with images := images, updatedAt := now }) turfs

/-- The rows of turfs and the number of uploads so far. -/
structure Moment where
  turfs : List Turf
  uploads : ℕ

abbrev Entry := Journal.Entry Call Write Moment

structure World where
  turfs : List Turf
  uploads : ℕ
  now : Time
  history : List Entry

def World.moment (w : World) : Moment := ⟨w.turfs, w.uploads⟩

def Stmt.act (cfg : Config) : (s : Stmt) → World → World → Effect Err Empty Write World s.Reply
  | .uploadStream _, _, w =>
    ⟨.ok (cfg.uploaded w.uploads), [], [.uploaded w.uploads], { w with uploads := w.uploads + 1 }⟩
  | .destroy _, _, w => ⟨.ok (), [], [], w⟩
  | .findImages id, view, w => match imagesOf view.turfs id with
    | none => ⟨.ok none, [], [], w⟩
    | some images => ⟨.ok (some images), [], [.seen id images], w⟩
  | .pushImage id imageUrl, view, w => match imagesOf view.turfs id with
    | none => ⟨.error .P2025, [], [], w⟩
    | some _ => ⟨.ok (), [], [.push id imageUrl w.now], w⟩
  | .setImages id images, view, w => match imagesOf view.turfs id with
    | none => ⟨.error .P2025, [], [], w⟩
    | some _ => ⟨.ok (), [], [.set id images w.now], w⟩

def engine (cfg : Config) : Engine Stmt Stmt.Reply Err Empty Write World Call where
  act := Stmt.act cfg
  apply x w := { w with turfs := x.apply w.turfs }
  commit c ws w := { w with
    turfs := ws.foldl Write.apply w.turfs
    history := w.history ++ [⟨c, ws, w.moment⟩] }
  fault := .infrastructure

abbrev Op (α : Type) := Script Stmt Stmt.Reply Err α

def perform (s : Stmt) : Op s.Reply := Script.perform s

namespace UploadService

/-- `turfbook/turfs/${turfId}`. -/
def folder (turfId : String) : String := "turfbook/turfs/" ++ turfId

/-- The checks of the file come before the upload. -/
def uploadTurfImages (file : File) (turfId : TurfId) : Op String :=
  if 5 * 1024 * 1024 < file.size then .throw (.badRequest "Image size must be less than 5MB")
  else if file.mimetype ∉ ["image/jpeg", "image/png", "image/webp"] then
    .throw (.badRequest "Invalid file type. Only JPEG, PNG and WEBP images are allowed")
  else do
    let uploaded : Uploaded ← perform (.uploadStream (folder (toString turfId)))
    match uploaded with
    | .error => .throw .infrastructure
    | .result secure_url =>
      if secure_url.getD "" = "" then
        .throw (.badRequest "Upload failed: no secure URL returned from Cloudinary")
      else pure (secure_url.getD "")

/-- The last three parts of the path, without the extension `/\.[^/.]+$/`. -/
def publicId (imageUrl : String) : String :=
  let path := "/".intercalate ((imageUrl.splitOn "/").reverse.take 3).reverse
  let extension := path.toList.reverse.takeWhile fun c => c ≠ '/' ∧ c ≠ '.'
  match path.toList.reverse.drop extension.length with
  | '.' :: rest => if extension = [] then path else String.ofList rest.reverse
  | _ => path

/-- Every error becomes an `InternalServerErrorException`. -/
def deleteImage (imageUrl : String) : Op Unit :=
  (perform (.destroy (publicId imageUrl))).tryCatch fun _ => .throw .infrastructure

end UploadService

namespace UploadController

def uploadTurfImage (turfId : TurfId) (file : File) : Op Reply := do
  let imageUrl ← UploadService.uploadTurfImages file turfId
  perform (.pushImage turfId imageUrl)
  pure (.imageUrl imageUrl)

def deleteTurfImage (turfId : TurfId) (imageUrl : String) : Op Reply := do
  let turf : Option (List String) ← perform (.findImages turfId)
  match turf with
  | none => .throw (.notFound "Turf not found")
  | some images =>
    if imageUrl ∉ images then .throw (.badRequest "Image not found on this turf")
    else do
      UploadService.deleteImage imageUrl
      perform (.setImages turfId (images.filter (· ≠ imageUrl)))
      pure .success

end UploadController

def Call.body : Call → Op Reply
  | uploadTurfImage turfId file => UploadController.uploadTurfImage turfId file
  | deleteTurfImage turfId imageUrl => UploadController.deleteTurfImage turfId imageUrl

/-- Time passes. -/
structure Tick where
  ms : ℕ
  deriving DecidableEq, Repr

def service (cfg : Config) : Service Stmt Stmt.Reply Err Empty Write World Call Tick Reply where
  toEngine := engine cfg
  body := Call.body
  accepts _ _ := true
  evolve v w := { w with now := w.now + v.ms }

abbrev Sys := System Stmt Stmt.Reply Err Empty Write World Call Reply

abbrev Act := Action Call Tick

end TurfSync.Images
