import TurfSync.Services.Images
import TurfSync.Text.Split

/-! The assets at Cloudinary. A turf's images are uploaded two folders deep, while the id that
`deleteImage` computes keeps one of the two: it has two slashes where the ids of the assets have
three. No deletion names an asset that was uploaded, so none is ever destroyed. -/

namespace TurfSync.Images

open Text

/-- What Cloudinary assigns to an upload. -/
structure Asset where
  cloud : String
  version : String
  name : String
  extension : String

namespace Asset

variable (asset : Asset) (folder : String)

def publicId : String := folder ++ "/" ++ asset.name

def secureUrl : String :=
  "https://res.cloudinary.com/" ++ asset.cloud ++ "/image/upload/" ++ asset.version ++ "/" ++
    folder ++ "/" ++ asset.name ++ "." ++ asset.extension

end Asset

/-! ### The id that is computed -/

open UploadService (folder)

/-- The last three parts of the path. -/
def lastParts (imageUrl : String) : List (List Char) :=
  ((imageUrl.toList.splitOn '/').reverse.take 3).reverse

theorem toList_path (imageUrl : String) :
    ("/".intercalate ((imageUrl.splitOn "/").reverse.take 3).reverse).toList =
      ['/'].intercalate (lastParts imageUrl) := by
  have hsplit : imageUrl.splitOn "/" = (imageUrl.toList.splitOn '/').map String.ofList :=
    splitOn_eq imageUrl '/'
  have hid : String.toList ∘ String.ofList = id := funext fun _ => String.toList_ofList
  rw [hsplit, ← List.map_reverse, ← List.map_take, ← List.map_reverse, String.toList_intercalate,
    List.map_map, hid, List.map_id]
  rfl

theorem count_path_le (imageUrl : String) :
    (['/'].intercalate (lastParts imageUrl)).count '/' ≤ 2 := by
  have hparts : ∀ part ∈ lastParts imageUrl, '/' ∉ part := by
    intro part hpart
    have hmem := List.mem_of_mem_take (List.mem_reverse.mp hpart)
    exact not_mem_of_mem_splitOn _ part (List.mem_reverse.mp hmem)
  have hlength : (lastParts imageUrl).length ≤ 3 := by
    rw [lastParts, List.length_reverse]
    exact List.length_take_le _ _
  have hcounts : ((lastParts imageUrl).map (·.count '/')).sum = 0 := by
    refine List.sum_eq_zero ?_
    exact List.forall_mem_map.mpr fun part hpart => List.count_eq_zero.mpr (hparts part hpart)
  rw [count_intercalate, hcounts]
  omega

/-- Dropping the extension leaves a beginning of the path. -/
theorem publicId_begins (imageUrl : String) :
    (UploadService.publicId imageUrl).toList <+: ['/'].intercalate (lastParts imageUrl) := by
  rw [← toList_path]
  unfold UploadService.publicId
  dsimp only
  split
  · next rest hrest =>
    split_ifs
    · exact List.prefix_rfl
    · rw [String.toList_ofList, ← List.reverse_suffix, List.reverse_reverse]
      exact (List.suffix_cons _ rest).trans (hrest ▸ List.drop_suffix _ _)
  · exact List.prefix_rfl

theorem count_publicId_le (imageUrl : String) :
    (UploadService.publicId imageUrl).toList.count '/' ≤ 2 :=
  ((publicId_begins imageUrl).sublist.count_le '/').trans (count_path_le imageUrl)

theorem count_assetId (asset : Asset) (turfId : String) :
    3 ≤ (asset.publicId (folder turfId)).toList.count '/' := by
  have hfolder : "turfbook/turfs/".toList.count '/' = 2 := by decide
  have hslash : "/".toList.count '/' = 1 := by decide
  rw [Asset.publicId, folder, String.toList_append, String.toList_append, String.toList_append,
    List.count_append, List.count_append, List.count_append, hfolder, hslash]
  omega

/-- Whatever the URL, the id that is destroyed is not that of an image of a turf. -/
theorem publicId_ne (imageUrl : String) (asset : Asset) (turfId : String) :
    UploadService.publicId imageUrl ≠ asset.publicId (folder turfId) := by
  intro h
  have hle := count_publicId_le imageUrl
  rw [h] at hle
  exact absurd (hle.trans' (count_assetId asset turfId)) (by decide)

/-- The slashes and the dot of a URL that ends in two folders, a turf and a file. -/
theorem toList_url (front book turfs turfId name extension slash dot : String)
    (hslash : slash.toList = ['/']) (hdot : dot.toList = ['.']) :
    (front ++ (book ++ slash ++ turfs ++ slash ++ turfId) ++ slash ++ name ++ dot ++
      extension).toList = (front ++ book).toList ++ '/' :: (turfs.toList ++ '/' :: (turfId.toList ++
        '/' :: (name.toList ++ '.' :: extension.toList))) := by
  simp only [String.toList_append, hslash, hdot, List.append_assoc, List.cons_append,
    List.nil_append]

theorem secureUrl_eq (asset : Asset) (turfId : String) : asset.secureUrl (folder turfId) =
    ("https://res.cloudinary.com/" ++ asset.cloud ++ "/image/upload/" ++ asset.version ++ "/") ++
      ("turfbook" ++ "/" ++ "turfs" ++ "/" ++ turfId) ++ "/" ++ asset.name ++ "." ++
        asset.extension :=
  rfl

section Computed

variable {asset : Asset} {turfId : String} (hid : '/' ∉ turfId.toList)
  (hname : '/' ∉ asset.name.toList)
  (hextension : ∀ c ∈ asset.extension.toList, c ≠ '/' ∧ c ≠ '.')
include hid hname hextension

theorem lastParts_secureUrl : lastParts (asset.secureUrl (folder turfId)) =
    ["turfs".toList, turfId.toList, asset.name.toList ++ '.' :: asset.extension.toList] := by
  have hsplit : ∀ xs ys : List Char, (xs ++ '/' :: ys).splitOnP (· == '/') =
      xs.splitOnP (· == '/') ++ ys.splitOnP (· == '/') := fun xs ys =>
    List.splitOnP_append_cons xs ys (beq_self_eq_true _)
  have hsingle : ∀ xs : List Char, '/' ∉ xs → xs.splitOnP (· == '/') = [xs] := fun xs hxs =>
    List.splitOnP_eq_singleton fun c hc => beq_false_of_ne fun h => hxs (h ▸ hc)
  have hurl := toList_url ("https://res.cloudinary.com/" ++ asset.cloud ++ "/image/upload/" ++
    asset.version ++ "/") "turfbook" "turfs" turfId asset.name asset.extension "/" "." rfl rfl
  rw [← secureUrl_eq] at hurl
  have hfile : '/' ∉ asset.name.toList ++ '.' :: asset.extension.toList := by
    intro hmem
    rcases List.mem_append.mp hmem with hmem | hmem
    · exact hname hmem
    · rcases List.mem_cons.mp hmem with hdot | hmem
      · exact absurd hdot (by decide)
      · exact (hextension '/' hmem).1 rfl
  rw [lastParts, hurl, List.splitOn_eq_splitOnP, hsplit, hsplit, hsplit,
    hsingle "turfs".toList (by decide), hsingle _ hid, hsingle _ hfile]
  simp

theorem publicId_secureUrl (hne : asset.extension ≠ "") :
    UploadService.publicId (asset.secureUrl (folder turfId)) =
      "turfs/" ++ turfId ++ "/" ++ asset.name := by
  have hpath := toList_path (asset.secureUrl (folder turfId))
  rw [lastParts_secureUrl hid hname hextension] at hpath
  have hturfs : "turfs/".toList = "turfs".toList ++ ['/'] := by decide
  have hreverse : (['/'].intercalate ["turfs".toList, turfId.toList,
      asset.name.toList ++ '.' :: asset.extension.toList]).reverse =
        asset.extension.toList.reverse ++ '.' ::
          ("turfs/" ++ turfId ++ "/" ++ asset.name).toList.reverse := by
    rw [List.intercalate_cons_cons, List.intercalate_cons_cons, List.intercalate_singleton]
    simp only [String.toList_append, hturfs, show "/".toList = ['/'] from rfl,
      List.reverse_append, List.reverse_cons, List.nil_append, List.cons_append,
      List.append_assoc]
  have hkept : (asset.extension.toList.reverse ++ '.' ::
      ("turfs/" ++ turfId ++ "/" ++ asset.name).toList.reverse).takeWhile
        (fun c => c ≠ '/' ∧ c ≠ '.') = asset.extension.toList.reverse := by
    rw [List.takeWhile_append_of_pos fun c hc =>
      decide_eq_true (hextension c (List.mem_reverse.mp hc))]
    simp
  have hsome : asset.extension.toList.reverse ≠ [] := by simpa using hne
  unfold UploadService.publicId
  dsimp only
  rw [hpath, hreverse, hkept, List.drop_left]
  show (if _ then _ else _) = _
  rw [if_neg hsome, List.reverse_reverse, String.ofList_toList]

end Computed

/-! ### Uploads and deletions -/

/-- An accepted upload returns the URL of the asset, from which `deleteImage` computes an id that
is not the asset's. -/
theorem deleteImage_misses_upload (file : Pages.File) (turfId : String) (asset : Asset)
    {imageUrl : String} (h : Pages.UploadService.uploadTurfImages file
      (.result (some (asset.secureUrl (folder turfId)))) = .ok imageUrl) :
    imageUrl = asset.secureUrl (folder turfId) ∧
      UploadService.publicId imageUrl ≠ asset.publicId (folder turfId) := by
  refine ⟨?_, publicId_ne imageUrl asset turfId⟩
  unfold Pages.UploadService.uploadTurfImages at h
  split_ifs at h
  dsimp only at h
  split_ifs at h
  exact (Except.ok.inj h).symm

def sampleTurf : String := "3f2504e0-4f89-41d3-9a0c-0305e82c3301"

def sampleAsset : Asset := ⟨"demo", "v1712345678", "k3x9q", "webp"⟩

theorem deleteImage_misses_sample :
    UploadService.publicId (sampleAsset.secureUrl (folder sampleTurf)) ≠
      sampleAsset.publicId (folder sampleTurf) :=
  (deleteImage_misses_upload ⟨1024, "image/webp"⟩ sampleTurf sampleAsset (by decide +kernel)).2

/-- `turfs/<id>/k3x9q` is destroyed, not `turfbook/turfs/<id>/k3x9q`. -/
theorem deleteImage_destroys_other :
    UploadService.publicId (sampleAsset.secureUrl (folder sampleTurf)) =
      "turfs/3f2504e0-4f89-41d3-9a0c-0305e82c3301/k3x9q" ∧
    UploadService.publicId (sampleAsset.secureUrl (folder sampleTurf)) ≠
      sampleAsset.publicId (folder sampleTurf) :=
  ⟨publicId_secureUrl (by decide +kernel) (by decide +kernel) (by simp [sampleAsset]) (by decide),
    publicId_ne _ _ _⟩

/-! ### The store -/

/-- The ids of the assets that Cloudinary holds. -/
structure Cloudinary where
  assets : List String

inductive StoreCall where
  | upload (turfId : String) (asset : Asset)
  | delete (imageUrl : String)

/-- The asset that a call adds. -/
def StoreCall.added : StoreCall → List String
  | upload turfId asset => [asset.publicId (folder turfId)]
  | delete _ => []

namespace Cloudinary

/-- To destroy an id that is not there is no error. -/
def call (c : Cloudinary) : StoreCall → Cloudinary
  | .upload turfId asset => ⟨c.assets ++ [asset.publicId (folder turfId)]⟩
  | .delete imageUrl => ⟨c.assets.filter (· ≠ UploadService.publicId imageUrl)⟩

/-- All assets are images of turfs. -/
def Stocked (c : Cloudinary) : Prop :=
  ∀ id ∈ c.assets, ∃ asset : Asset, ∃ turfId, id = asset.publicId (folder turfId)

theorem call_assets {c : Cloudinary} (hc : c.Stocked) (x : StoreCall) :
    (c.call x).assets = c.assets ++ x.added := by
  cases x with
  | upload turfId asset => rfl
  | delete imageUrl =>
    rw [StoreCall.added, List.append_nil]
    refine List.filter_eq_self.mpr fun id hid => decide_eq_true ?_
    obtain ⟨asset, turfId, rfl⟩ := hc id hid
    exact (publicId_ne imageUrl asset turfId).symm

theorem Stocked.call {c : Cloudinary} (hc : c.Stocked) (x : StoreCall) : (c.call x).Stocked := by
  intro id hid
  rw [call_assets hc] at hid
  rcases List.mem_append.mp hid with hid | hid
  · exact hc id hid
  · cases x with
    | upload turfId asset => exact ⟨asset, turfId, List.mem_singleton.mp hid⟩
    | delete imageUrl => exact absurd hid List.not_mem_nil

/-- Whatever is uploaded and deleted, all that was uploaded is still held. -/
theorem run_assets {c : Cloudinary} (hc : c.Stocked) (calls : List StoreCall) :
    (calls.foldl call c).assets = c.assets ++ calls.flatMap StoreCall.added := by
  induction calls generalizing c with
  | nil => simp
  | cons x calls ih =>
    rw [List.foldl_cons, ih (hc.call x), call_assets hc, List.flatMap_cons, List.append_assoc]

end Cloudinary

end TurfSync.Images
