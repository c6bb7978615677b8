import Mathlib.Data.Rat.Floor
import Splitbind.Fingerprint.TileLayout

/-!
# Tile placement — disjoint tiles of the grid, and when there are none

The byte stream of a page is a finite supply of bytes, taken in order.  Whatever it holds, the tiles
that are derived are distinct tiles of the page's grid.
-/

namespace Splitbind

open Transaction

/-! ## 1. The stream as a supply of bytes -/

section Supply

variable (hmac : HmacSha256) (streamDomain : List UInt8)

/-- The blocks from a counter on. -/
def blocksFrom (seed : List UInt8) (counter : Nat) : List UInt8 :=
  (List.range' counter (blockCount - counter)).flatMap
    (HmacByteStream.block hmac streamDomain seed)

/-- All the bytes the stream can still give. -/
def HmacByteStream.supply (stream : HmacByteStream) : List UInt8 :=
  stream.buffer ++ blocksFrom hmac streamDomain stream.seed stream.counter

theorem blocksFrom_eq {seed : List UInt8} {counter : Nat} (hlt : counter < blockCount) :
    blocksFrom hmac streamDomain seed counter =
      HmacByteStream.block hmac streamDomain seed counter ++
        blocksFrom hmac streamDomain seed (counter + 1) := by
  rw [blocksFrom, show blockCount - counter = (blockCount - (counter + 1)) + 1 by omega,
    List.range'_succ, List.flatMap_cons]
  rfl

theorem HmacByteStream.fill_spec (count : Nat) (stream : HmacByteStream) :
    (∃ filled, stream.fill hmac streamDomain count = .ok filled ∧
        filled.supply hmac streamDomain = stream.supply hmac streamDomain ∧
        count ≤ filled.buffer.length) ∨
      stream.fill hmac streamDomain count = .error .overflow ∧
        (stream.supply hmac streamDomain).length < count := by
  induction stream using HmacByteStream.fill.induct hmac streamDomain count with
  | case1 stream hshort hblock ih =>
    rw [fill, if_pos hshort, if_pos hblock]
    -- a block moves from the stream into the buffer
    have hsupply : ({ stream with
        counter := stream.counter + 1
        buffer := stream.buffer ++ block hmac streamDomain stream.seed stream.counter } :
          HmacByteStream).supply hmac streamDomain = stream.supply hmac streamDomain := by
      rw [supply, supply, blocksFrom_eq hmac streamDomain hblock, List.append_assoc]
    rw [hsupply] at ih
    exact ih
  | case2 stream hshort hblock =>
    rw [fill, if_pos hshort, if_neg hblock]
    refine .inr ⟨rfl, ?_⟩
    rw [supply, blocksFrom, Nat.sub_eq_zero_of_le (Nat.le_of_not_lt hblock), List.range'_zero,
      List.flatMap_nil, List.append_nil]
    exact hshort
  | case3 stream hlong =>
    rw [fill, if_neg hlong]
    exact .inl ⟨stream, rfl, rfl, Nat.le_of_not_lt hlong⟩

/-- Reading takes the next bytes of the supply, unless they are too few. -/
theorem HmacByteStream.read_spec (count : Nat) (stream : HmacByteStream) :
    (∃ next, stream.read hmac streamDomain count =
        .ok ((stream.supply hmac streamDomain).take count, next) ∧
        next.supply hmac streamDomain = (stream.supply hmac streamDomain).drop count ∧
        count ≤ (stream.supply hmac streamDomain).length) ∨
      stream.read hmac streamDomain count = .error .overflow ∧
        (stream.supply hmac streamDomain).length < count := by
  rcases stream.fill_spec hmac streamDomain count with
    ⟨filled, hfill, hsupply, hcount⟩ | ⟨hfill, hshort⟩
  · refine .inl ⟨{ filled with buffer := filled.buffer.drop count }, ?_, ?_, ?_⟩
    · rw [read, hfill, ok_bind, ← hsupply, supply, List.take_append_of_le_length hcount]
      rfl
    · rw [← hsupply, supply, supply, List.drop_append_of_le_length hcount]
    · rw [← hsupply, supply, List.length_append]
      exact hcount.trans (Nat.le_add_right _ _)
  · refine .inr ⟨?_, hshort⟩
    rw [read, hfill, error_bind]

/-- A number below a bound, from a supply of bytes. -/
def drawBelow (upperBound : Nat) (supply : List UInt8) :
    Except LayoutError (Nat × List UInt8) :=
  found (Rejection.sample (byteCount upperBound) (acceptanceLimit upperBound) upperBound supply)
    .overflow

/-- One turn of the loop. -/
theorem HmacByteStream.accept_eq (upperBound : Nat) (stream : HmacByteStream) :
    stream.accept hmac streamDomain upperBound =
      (stream.read hmac streamDomain (byteCount upperBound) >>= fun sample ↦
        if BigEndian.fromBytes sample.1 < acceptanceLimit upperBound then
          .ok (BigEndian.fromBytes sample.1 % upperBound, sample.2)
        else sample.2.accept hmac streamDomain upperBound) := by
  rw [accept]
  split
  · rename_i hread
    rw [hread, error_bind]
  · rename_i hread
    rw [hread, ok_bind]

/-- The stream draws what its supply gives. -/
theorem HmacByteStream.accept_supply (upperBound : Nat) (stream : HmacByteStream) :
    (stream.accept hmac streamDomain upperBound).map
        (fun drawn ↦ (drawn.1, drawn.2.supply hmac streamDomain)) =
      drawBelow upperBound (stream.supply hmac streamDomain) := by
  induction h : stream.remaining using Nat.strongRecOn generalizing stream with
  | ind n ih =>
    rw [accept_eq, drawBelow, Rejection.sample]
    rcases stream.read_spec hmac streamDomain (byteCount upperBound) with
      ⟨next, hread, hsupply, hlong⟩ | ⟨hread, hshort⟩
    · have hpos := byteCount_pos upperBound
      have hremaining := read_remaining hmac streamDomain hread
      have henough : ¬ ((stream.supply hmac streamDomain).length < byteCount upperBound ∨
          byteCount upperBound = 0) := by omega
      rw [hread, ok_bind, if_neg henough]
      dsimp only
      split_ifs with haccepted
      · rw [found_some, ← hsupply]
        rfl
      · -- a rejected sample is dropped
        rw [← hsupply]
        exact ih next.remaining (by omega) next rfl
    · rw [hread, error_bind, if_pos (.inl hshort), found_none]
      rfl

theorem randbelow_supply {upperBound : Nat} (hpos : 0 < upperBound) (stream : HmacByteStream) :
    (randbelow hmac streamDomain upperBound stream).map
        (fun drawn ↦ (drawn.1, drawn.2.supply hmac streamDomain)) =
      drawBelow upperBound (stream.supply hmac streamDomain) := by
  rw [randbelow, raiseIf_neg (not_le.mpr hpos), ok_bind]
  exact stream.accept_supply hmac streamDomain upperBound

/-- The draws of a shuffle are those from the supply. -/
theorem drawsFrom_supply (index : Nat) (stream : HmacByteStream) :
    (FisherYates.drawsFrom (randbelow hmac streamDomain) index stream).map
        (HmacByteStream.supply hmac streamDomain) =
      FisherYates.drawsFrom drawBelow index (stream.supply hmac streamDomain) := by
  induction index generalizing stream with
  | zero => rfl
  | succ index ih =>
    rw [FisherYates.drawsFrom, FisherYates.drawsFrom,
      ← randbelow_supply hmac streamDomain (Nat.succ_pos (index + 1)) stream]
    cases randbelow hmac streamDomain (index + 2) stream with
    | error e => rfl
    | ok drawn => exact ih drawn.2

end Supply

/-! ## 2. Numbers below a bound -/

theorem sampleSpace_eq (upperBound : Nat) : sampleSpace upperBound = 256 ^ byteCount upperBound := by
  rw [sampleSpace, Nat.one_shiftLeft, Nat.mul_comm, Nat.pow_mul]

theorem lt_sampleSpace (upperBound : Nat) : upperBound < sampleSpace upperBound := by
  have hbytes : upperBound.size ≤ byteCount upperBound * 8 := by
    have hle : (upperBound.size + 7) / 8 ≤ byteCount upperBound := le_max_right 1 _
    omega
  rw [sampleSpace, Nat.one_shiftLeft]
  exact lt_of_lt_of_le (Nat.lt_size_self upperBound) (Nat.pow_le_pow_right two_pos hbytes)

theorem dvd_acceptanceLimit (upperBound : Nat) : upperBound ∣ acceptanceLimit upperBound :=
  Nat.dvd_sub_mod _

theorem acceptanceLimit_le (upperBound : Nat) :
    acceptanceLimit upperBound ≤ 256 ^ byteCount upperBound := by
  rw [← sampleSpace_eq]
  exact Nat.sub_le _ _

theorem acceptanceLimit_pos {upperBound : Nat} (hpos : 0 < upperBound) :
    0 < acceptanceLimit upperBound := by
  have hmod := Nat.mod_lt (sampleSpace upperBound) hpos
  have hspace := lt_sampleSpace upperBound
  rw [acceptanceLimit]
  omega

/-- A number that is drawn is the residue of an accepted byte string of the stream. -/
theorem randbelow_accepted {hmac : HmacSha256} {streamDomain : List UInt8}
    {upperBound value : Nat} {stream next : HmacByteStream}
    (h : randbelow hmac streamDomain upperBound stream = .ok (value, next)) :
    value < upperBound ∧ ∃ bytes ∈ Rejection.accepted (byteCount upperBound)
      (acceptanceLimit upperBound) upperBound value,
        bytes <:+: stream.supply hmac streamDomain := by
  have hpos : 0 < upperBound := by
    by_contra hzero
    rw [randbelow, raiseIf_pos (Nat.le_of_not_lt hzero), error_bind] at h
    cases h
  have hdraw := randbelow_supply hmac streamDomain hpos stream
  rw [h, drawBelow] at hdraw
  have hsample := (found_eq_ok _ _ _).mp hdraw.symm
  obtain ⟨dropped, bytes, hsupply, hbytes⟩ := Rejection.sample_accepted hsample
  exact ⟨Rejection.accepted_lt hpos hbytes, bytes, hbytes, dropped, _, hsupply.symm⟩

/-! ## 3. The grid -/

/-- The tile lies on a pixel. -/
def Tile.Covers (tile : Tile) (x y : Nat) : Prop :=
  tile.x ≤ x ∧ x < tile.x + tile.width ∧ tile.y ≤ y ∧ y < tile.y + tile.height

def Tile.Disjoint (tile other : Tile) : Prop := ∀ x y, ¬ (tile.Covers x y ∧ other.Covers x y)

/-- How many tiles fit side by side. -/
theorem rangeStep_count {side tileSizePx : Nat} (hpos : 0 < tileSizePx) (hle : tileSizePx ≤ side) :
    rangeStep (side - tileSizePx + 1) tileSizePx =
      List.range' 0 (side / tileSizePx) tileSizePx := by
  rw [rangeStep, show side - tileSizePx + 1 + tileSizePx - 1 = side by omega]

theorem mem_tileGrid {height width tileSizePx : Nat} {tile : Tile} (hpos : 0 < tileSizePx)
    (hheight : tileSizePx ≤ height) (hwidth : tileSizePx ≤ width) :
    tile ∈ tileGrid height width tileSizePx ↔
      ∃ row < height / tileSizePx, ∃ column < width / tileSizePx,
        tile = ⟨tileSizePx * column, tileSizePx * row, tileSizePx, tileSizePx⟩ := by
  rw [tileGrid, rangeStep_count hpos hheight, rangeStep_count hpos hwidth, List.mem_flatMap]
  constructor
  · rintro ⟨y, hy, htile⟩
    obtain ⟨row, hrow, rfl⟩ := List.mem_range'.mp hy
    obtain ⟨x, hx, rfl⟩ := List.mem_map.mp htile
    obtain ⟨column, hcolumn, rfl⟩ := List.mem_range'.mp hx
    refine ⟨row, hrow, column, hcolumn, ?_⟩
    rw [Nat.zero_add, Nat.zero_add]
  · rintro ⟨row, hrow, column, hcolumn, rfl⟩
    refine ⟨tileSizePx * row, List.mem_range'.mpr ⟨row, hrow, (Nat.zero_add _).symm⟩,
      List.mem_map.mpr ⟨tileSizePx * column, ?_, rfl⟩⟩
    exact List.mem_range'.mpr ⟨column, hcolumn, (Nat.zero_add _).symm⟩

theorem length_tileGrid {height width tileSizePx : Nat} (hpos : 0 < tileSizePx)
    (hheight : tileSizePx ≤ height) (hwidth : tileSizePx ≤ width) :
    (tileGrid height width tileSizePx).length =
      height / tileSizePx * (width / tileSizePx) := by
  rw [tileGrid, rangeStep_count hpos hheight, rangeStep_count hpos hwidth, List.length_flatMap]
  simp only [List.length_map, List.length_range', List.map_const', List.sum_replicate_nat]

theorem nodup_tileGrid {height width tileSizePx : Nat} (hpos : 0 < tileSizePx)
    (hheight : tileSizePx ≤ height) (hwidth : tileSizePx ≤ width) :
    (tileGrid height width tileSizePx).Nodup := by
  rw [tileGrid, rangeStep_count hpos hheight, rangeStep_count hpos hwidth, List.nodup_flatMap]
  have hoffsets : ∀ n, (List.range' 0 n tileSizePx).Nodup :=
    fun n ↦ List.nodup_range' tileSizePx hpos
  constructor
  · intro y _
    refine (hoffsets _).map fun x x' htile ↦ ?_
    cases htile
    rfl
  · refine (hoffsets _).imp fun {y y'} hne ↦ ?_
    intro tile htile htile'
    obtain ⟨x, -, rfl⟩ := List.mem_map.mp htile
    obtain ⟨x', -, hsame⟩ := List.mem_map.mp htile'
    cases hsame
    exact hne rfl

/-- A pixel lies on one tile of the grid at most. -/
theorem eq_of_covers {height width tileSizePx x y : Nat} {tile : Tile} (hpos : 0 < tileSizePx)
    (hheight : tileSizePx ≤ height) (hwidth : tileSizePx ≤ width)
    (htile : tile ∈ tileGrid height width tileSizePx) (hcovers : tile.Covers x y) :
    tile = ⟨tileSizePx * (x / tileSizePx), tileSizePx * (y / tileSizePx), tileSizePx,
      tileSizePx⟩ := by
  obtain ⟨row, -, column, -, rfl⟩ := (mem_tileGrid hpos hheight hwidth).mp htile
  obtain ⟨hx, hx', hy, hy'⟩ := hcovers
  have hcolumn : x / tileSizePx = column :=
    Nat.div_eq_of_lt_le (by rw [Nat.mul_comm]; exact hx)
      (by rw [Nat.mul_comm, Nat.mul_succ]; exact hx')
  have hrow : y / tileSizePx = row :=
    Nat.div_eq_of_lt_le (by rw [Nat.mul_comm]; exact hy)
      (by rw [Nat.mul_comm, Nat.mul_succ]; exact hy')
  rw [hcolumn, hrow]

theorem disjoint_of_ne {height width tileSizePx : Nat} {tile other : Tile} (hpos : 0 < tileSizePx)
    (hheight : tileSizePx ≤ height) (hwidth : tileSizePx ≤ width)
    (htile : tile ∈ tileGrid height width tileSizePx)
    (hother : other ∈ tileGrid height width tileSizePx) (hne : tile ≠ other) :
    tile.Disjoint other := by
  rintro x y ⟨hcovers, hcovers'⟩
  exact hne ((eq_of_covers hpos hheight hwidth htile hcovers).trans
    (eq_of_covers hpos hheight hwidth hother hcovers').symm)

/-- A tile of the grid lies inside the page. -/
theorem inside_of_mem_tileGrid {height width tileSizePx : Nat} {tile : Tile}
    (hpos : 0 < tileSizePx) (hheight : tileSizePx ≤ height) (hwidth : tileSizePx ≤ width)
    (htile : tile ∈ tileGrid height width tileSizePx) :
    tile.x + tile.width ≤ width ∧ tile.y + tile.height ≤ height := by
  obtain ⟨row, hrow, column, hcolumn, rfl⟩ := (mem_tileGrid hpos hheight hwidth).mp htile
  have hright := (Nat.mul_le_mul_left tileSizePx hcolumn).trans (Nat.mul_div_le width tileSizePx)
  have hbottom := (Nat.mul_le_mul_left tileSizePx hrow).trans (Nat.mul_div_le height tileSizePx)
  exact ⟨hright, hbottom⟩

/-! ## 4. What is derived, and when -/

/-- The arguments that pass every check of their own. -/
structure ValidLayout (version : LayoutVersion) (pageShape : Int × Int) (key : List UInt8)
    (pageIndex : Int) (profile : LayoutProfile) : Prop where
  height : 0 < pageShape.1
  width : 0 < pageShape.2
  key : key ≠ []
  pageIndex : 0 ≤ pageIndex ∧ pageIndex ≤ 0xFFFFFFFF
  schemaVersion : profile.schemaVersion = version.schemaVersion
  tileSizePx : 0 < profile.tileSizePx
  tilesPerPage : 0 < profile.tilesPerPage
  identifier : ∃ identifier, profile.candidateIdentifier = .ok identifier

/-- How many tiles the page has room for. -/
def gridSlots (pageShape : Int × Int) (profile : LayoutProfile) : Nat :=
  pageShape.1.toNat / profile.tileSizePx.toNat * (pageShape.2.toNat / profile.tileSizePx.toNat)

/-- The stream that the key, the page and the profile determine, before it is read. -/
def layoutStream (hmac : HmacSha256) (version : LayoutVersion) (key : List UInt8)
    (pageIndex : Int) (identifier : List UInt8) : HmacByteStream :=
  ⟨hmac.digest key (version.seedDomain ++ BigEndian.toBytes 4 pageIndex.toNat ++ identifier), 0,
    []⟩

/-- Rejected samples leave too little of all the blocks of the stream for the draws of a shuffle. -/
def StreamExhausted (hmac : HmacSha256) (version : LayoutVersion) (key : List UInt8)
    (pageIndex : Int) (identifier : List UInt8) (slots : Nat) : Prop :=
  FisherYates.drawsFrom drawBelow (slots - 1)
    ((layoutStream hmac version key pageIndex identifier).supply hmac version.streamDomain) =
      .error .overflow

/-- The inputs that are refused. -/
def LayoutRefused (hmac : HmacSha256) (version : LayoutVersion) (pageShape : Int × Int)
    (key : List UInt8) (pageIndex : Int) (profile : LayoutProfile) : Prop :=
  ¬ ValidLayout version pageShape key pageIndex profile ∨
    maxLayoutPixels < pageShape.1 * pageShape.2 ∨
    gridSlots pageShape profile < profile.tilesPerPage ∨
    ∃ identifier, profile.candidateIdentifier = .ok identifier ∧
      StreamExhausted hmac version key pageIndex identifier (gridSlots pageShape profile)

/-- The tiles of a page, as its embedder and its receiver rely on them. -/
structure TilesPlaced (pageShape : Int × Int) (profile : LayoutProfile) (tiles : List Tile) :
    Prop where
  count : (tiles.length : Int) = profile.tilesPerPage
  disjoint : tiles.Pairwise Tile.Disjoint
  inside : ∀ tile ∈ tiles, ((tile.x + tile.width : Nat) : Int) ≤ pageShape.2 ∧
    ((tile.y + tile.height : Nat) : Int) ≤ pageShape.1
  onGrid : ∀ tile ∈ tiles,
    tile ∈ tileGrid pageShape.1.toNat pageShape.2.toNat profile.tileSizePx.toNat
  nodup : tiles.Nodup

section Derive

variable {hmac : HmacSha256} {version : LayoutVersion}
  {arrange : Nat → Nat → List Tile → List Tile} {pageShape : Int × Int} {key : List UInt8}
  {pageIndex : Int} {profile : LayoutProfile}

/-- A draw fails only where the stream is exhausted. -/
theorem drawsFrom_error {index : Nat} {supply : List UInt8} {e : LayoutError}
    (h : FisherYates.drawsFrom drawBelow index supply = .error e) : e = .overflow := by
  induction index generalizing supply with
  | zero => cases h
  | succ index ih =>
    rw [FisherYates.drawsFrom, bind_eq_error] at h
    rcases h with h | ⟨drawn, -, h⟩
    · rw [drawBelow, found_eq_error] at h
      exact h.2.symm
    · exact ih h

/-- The shuffle succeeds unless the stream is exhausted. -/
theorem shuffle_ok_iff {α : Type} {streamDomain : List UInt8} {values : Array α}
    {stream : HmacByteStream} :
    (∃ shuffled next, FisherYates.shuffle (randbelow hmac streamDomain) values stream =
        .ok (shuffled, next)) ↔
      FisherYates.drawsFrom drawBelow (values.size - 1) (stream.supply hmac streamDomain) ≠
        .error .overflow := by
  rw [← drawsFrom_supply]
  cases hshuffle : FisherYates.shuffle (randbelow hmac streamDomain) values stream with
  | ok result =>
    refine iff_of_true ⟨result.1, result.2, rfl⟩ fun hdraws ↦ ?_
    cases hfrom : FisherYates.drawsFrom (randbelow hmac streamDomain) (values.size - 1) stream with
    | ok next =>
      rw [hfrom] at hdraws
      cases hdraws
    | error e =>
      rw [FisherYates.shuffle_eq_error.mpr hfrom] at hshuffle
      cases hshuffle
  | error e =>
    have hfrom := FisherYates.shuffle_eq_error.mp hshuffle
    have hsupply := drawsFrom_supply hmac streamDomain (values.size - 1) stream
    rw [hfrom] at hsupply
    have he := drawsFrom_error hsupply.symm
    refine iff_of_false ?_ fun hdraws ↦ hdraws ?_
    · rintro ⟨shuffled, next, hok⟩
      cases hok
    · rw [hfrom, he]
      rfl

/-- What the checks and the shuffle of a layout that is derived have found. -/
theorem deriveTiles_eq_ok {tiles : List Tile}
    (h : deriveTiles hmac version arrange pageShape key pageIndex profile = .ok tiles) :
    ValidLayout version pageShape key pageIndex profile ∧
      pageShape.1.toNat * pageShape.2.toNat ≤ maxLayoutPixels ∧
      (profile.tileSizePx.toNat ≤ pageShape.1.toNat ∧
        profile.tileSizePx.toNat ≤ pageShape.2.toNat) ∧
      profile.tilesPerPage.toNat ≤
        (tileGrid pageShape.1.toNat pageShape.2.toNat profile.tileSizePx.toNat).length ∧
      ∃ identifier shuffled next, profile.candidateIdentifier = .ok identifier ∧
        FisherYates.shuffle (randbelow hmac version.streamDomain)
          (tileGrid pageShape.1.toNat pageShape.2.toNat profile.tileSizePx.toNat).toArray
          (layoutStream hmac version key pageIndex identifier) = .ok (shuffled, next) ∧
        tiles = (arrange pageShape.1.toNat pageShape.2.toNat shuffled.toList).take
          profile.tilesPerPage.toNat := by
  simp only [deriveTiles, validatePageShape, validateLayoutKey, validatePageIndex,
    validateLayoutProfile, bind_eq_ok, raiseIf_eq_ok, pure_eq_ok, exists_unit, not_or, not_le,
    not_not] at h
  obtain ⟨⟨height, width⟩, ⟨⟨hheight, hwidth⟩, hshape⟩, hkey, hindex, identifier,
    ⟨hschema, ⟨htile, hcount⟩, hidentifier⟩, hpixels, hfits, hslots, ⟨shuffled, next⟩, hshuffle,
    rfl⟩ := h
  cases hshape
  cases hgiven : profile.candidateIdentifier with
  | error e =>
    rw [hgiven] at hidentifier
    cases hidentifier
  | ok given =>
    rw [hgiven] at hidentifier
    cases hidentifier
    exact ⟨⟨hheight, hwidth, hkey, hindex, hschema, htile, hcount, ⟨_, hgiven⟩⟩,
      not_lt.mp hpixels, ⟨not_lt.mp hfits.1, not_lt.mp hfits.2⟩, not_lt.mp hslots, _, _, _, rfl,
      hshuffle, rfl⟩

/-- A page with a slot for a tile is as high and as wide as the tile. -/
theorem tile_fits (htile : 0 < profile.tileSizePx) (hslots : 0 < gridSlots pageShape profile) :
    profile.tileSizePx.toNat ≤ pageShape.1.toNat ∧
      profile.tileSizePx.toNat ≤ pageShape.2.toNat := by
  have hpos : 0 < profile.tileSizePx.toNat := by omega
  rw [gridSlots] at hslots
  have hrows := Nat.pos_of_mul_pos_right hslots
  have hcolumns := Nat.pos_of_mul_pos_left hslots
  exact ⟨(Nat.div_pos_iff.mp hrows).2, (Nat.div_pos_iff.mp hcolumns).2⟩

/-- A layout is derived from valid arguments, a page within the ceiling with room for the tiles, and
a stream that is not exhausted. -/
theorem deriveTiles_of_valid {identifier : List UInt8} {shuffled : Array Tile}
    {next : HmacByteStream} (hvalid : ValidLayout version pageShape key pageIndex profile)
    (hidentifier : profile.candidateIdentifier = .ok identifier)
    (hpixels : pageShape.1.toNat * pageShape.2.toNat ≤ maxLayoutPixels)
    (hslots : profile.tilesPerPage.toNat ≤ gridSlots pageShape profile)
    (hshuffle : FisherYates.shuffle (randbelow hmac version.streamDomain)
      (tileGrid pageShape.1.toNat pageShape.2.toNat profile.tileSizePx.toNat).toArray
      (layoutStream hmac version key pageIndex identifier) = .ok (shuffled, next)) :
    deriveTiles hmac version arrange pageShape key pageIndex profile =
      .ok ((arrange pageShape.1.toNat pageShape.2.toNat shuffled.toList).take
        profile.tilesPerPage.toNat) := by
  have htile := hvalid.tileSizePx
  have hcount := hvalid.tilesPerPage
  have hfits := tile_fits htile (show 0 < gridSlots pageShape profile by omega)
  have hlength := length_tileGrid (show 0 < profile.tileSizePx.toNat by omega) hfits.1 hfits.2
  have hshape : validatePageShape pageShape = .ok (pageShape.1.toNat, pageShape.2.toNat) := by
    have hpositive : ¬ (pageShape.1 ≤ 0 ∨ pageShape.2 ≤ 0) := by
      have hheight := hvalid.height
      have hwidth := hvalid.width
      omega
    rw [validatePageShape, raiseIf_neg hpositive]
    rfl
  have hkey : validateLayoutKey key = .ok ⟨⟩ := raiseIf_neg hvalid.key _
  have hindex : validatePageIndex pageIndex = .ok ⟨⟩ :=
    raiseIf_neg (not_not.mpr hvalid.pageIndex) _
  have hprofile : validateLayoutProfile version profile = .ok identifier := by
    have hpositive : ¬ (profile.tileSizePx ≤ 0 ∨ profile.tilesPerPage ≤ 0) := by omega
    rw [validateLayoutProfile, raiseIf_neg (not_not.mpr hvalid.schemaVersion), ok_bind,
      raiseIf_neg hpositive, ok_bind, hidentifier]
    rfl
  have hroom : ¬ (tileGrid pageShape.1.toNat pageShape.2.toNat profile.tileSizePx.toNat).length <
      profile.tilesPerPage.toNat := by
    rw [hlength]
    exact not_lt.mpr hslots
  have hsmall : ¬ (pageShape.1.toNat < profile.tileSizePx.toNat ∨
      pageShape.2.toNat < profile.tileSizePx.toNat) := by omega
  rw [layoutStream] at hshuffle
  simp only [deriveTiles, hshape, hkey, hindex, hprofile, ok_bind,
    raiseIf_neg (not_lt.mpr hpixels), raiseIf_neg hsmall, raiseIf_neg hroom, hshuffle]
  rfl

/-- A layout is derived exactly when nothing refuses it. -/
theorem deriveTiles_refused_iff :
    (∃ e, deriveTiles hmac version arrange pageShape key pageIndex profile = .error e) ↔
      LayoutRefused hmac version pageShape key pageIndex profile := by
  have hgrid : ∀ identifier, ValidLayout version pageShape key pageIndex profile →
      profile.tileSizePx.toNat ≤ pageShape.1.toNat →
      profile.tileSizePx.toNat ≤ pageShape.2.toNat →
      ((∃ shuffled next, FisherYates.shuffle (randbelow hmac version.streamDomain)
          (tileGrid pageShape.1.toNat pageShape.2.toNat profile.tileSizePx.toNat).toArray
          (layoutStream hmac version key pageIndex identifier) = .ok (shuffled, next)) ↔
        ¬ StreamExhausted hmac version key pageIndex identifier
          (gridSlots pageShape profile)) := by
    intro identifier hvalid hheight hwidth
    have htile := hvalid.tileSizePx
    have hlength := length_tileGrid (show 0 < profile.tileSizePx.toNat by omega) hheight hwidth
    rw [shuffle_ok_iff, List.size_toArray, hlength]
    exact Iff.rfl
  -- the ceiling on whole numbers, for shapes that are positive
  have hpixels : pageShape.1.toNat * pageShape.2.toNat ≤ maxLayoutPixels ∨
      ¬ (0 < pageShape.1 ∧ 0 < pageShape.2) ↔
        ¬ ((maxLayoutPixels : Nat) : Int) < pageShape.1 * pageShape.2 ∨
          ¬ (0 < pageShape.1 ∧ 0 < pageShape.2) := by
    refine or_congr_left' fun hpositive ↦ ?_
    rw [not_not] at hpositive
    obtain ⟨height, hheight⟩ := Int.eq_ofNat_of_zero_le hpositive.1.le
    obtain ⟨width, hwidth⟩ := Int.eq_ofNat_of_zero_le hpositive.2.le
    rw [hheight, hwidth, not_lt, Int.toNat_natCast, Int.toNat_natCast]
    exact_mod_cast Iff.rfl
  cases hderived : deriveTiles hmac version arrange pageShape key pageIndex profile with
  | ok tiles =>
    refine iff_of_false (fun h ↦ by obtain ⟨e, he⟩ := h; cases he) ?_
    obtain ⟨hvalid, hceiling, hfits, hslots, identifier, shuffled, next, hidentifier, hshuffle,
      -⟩ := deriveTiles_eq_ok hderived
    have htile := hvalid.tileSizePx
    have hlength := length_tileGrid (show 0 < profile.tileSizePx.toNat by omega) hfits.1 hfits.2
    -- none of the reasons applies to a layout that was derived
    rintro (hinvalid | hover | hfew | ⟨given, hgiven, hexhausted⟩)
    · exact hinvalid hvalid
    · exact (hpixels.mp (.inl hceiling)).elim (fun h ↦ h hover)
        (fun h ↦ h ⟨hvalid.height, hvalid.width⟩)
    · rw [hlength] at hslots
      rw [gridSlots] at hfew
      omega
    · rw [hidentifier] at hgiven
      cases hgiven
      exact (hgrid identifier hvalid hfits.1 hfits.2).mp ⟨shuffled, next, hshuffle⟩ hexhausted
  | error e =>
    refine iff_of_true ⟨e, rfl⟩ ?_
    -- and without a reason the layout would be derived
    by_contra hrefused
    rw [LayoutRefused, not_or, not_or, not_or, not_not] at hrefused
    obtain ⟨hvalid, hceiling, hslots, hexhausted⟩ := hrefused
    obtain ⟨identifier, hidentifier⟩ := hvalid.identifier
    have htile := hvalid.tileSizePx
    have hcount := hvalid.tilesPerPage
    have hfits := tile_fits htile (show 0 < gridSlots pageShape profile by omega)
    have hstream : ¬ StreamExhausted hmac version key pageIndex identifier
        (gridSlots pageShape profile) := fun h ↦ hexhausted ⟨identifier, hidentifier, h⟩
    obtain ⟨shuffled, next, hshuffle⟩ :=
      (hgrid identifier hvalid hfits.1 hfits.2).mpr hstream
    have hwithin := (hpixels.mpr (.inl hceiling)).resolve_right
      (not_not.mpr ⟨hvalid.height, hvalid.width⟩)
    rw [deriveTiles_of_valid hvalid hidentifier hwithin (by omega) hshuffle] at hderived
    cases hderived

/-- The tiles that are derived are placed, in an arrangement of a permutation of the grid. -/
theorem deriveTiles_placed {tiles : List Tile}
    (harrange : ∀ height width candidates, (arrange height width candidates).Perm candidates)
    (h : deriveTiles hmac version arrange pageShape key pageIndex profile = .ok tiles) :
    TilesPlaced pageShape profile tiles ∧
      ∃ shuffled : List Tile,
        shuffled.Perm (tileGrid pageShape.1.toNat pageShape.2.toNat profile.tileSizePx.toNat) ∧
        (∃ identifier next, FisherYates.shuffle (randbelow hmac version.streamDomain)
          (tileGrid pageShape.1.toNat pageShape.2.toNat profile.tileSizePx.toNat).toArray
          (layoutStream hmac version key pageIndex identifier) = .ok (shuffled.toArray, next)) ∧
        tiles = (arrange pageShape.1.toNat pageShape.2.toNat shuffled).take
          profile.tilesPerPage.toNat := by
  obtain ⟨hvalid, hceiling, hfits, hslots, identifier, shuffled, next, hidentifier, hshuffle,
    rfl⟩ := deriveTiles_eq_ok h
  have htile := hvalid.tileSizePx
  have hheight := hvalid.height
  have hwidth := hvalid.width
  have hpos : 0 < profile.tileSizePx.toNat := by omega
  have hperm : shuffled.toList.Perm
      (tileGrid pageShape.1.toNat pageShape.2.toNat profile.tileSizePx.toNat) :=
    FisherYates.shuffle_perm hshuffle
  have harranged := (harrange pageShape.1.toNat pageShape.2.toNat shuffled.toList).trans hperm
  have hnodup : ((arrange pageShape.1.toNat pageShape.2.toNat shuffled.toList).take
      profile.tilesPerPage.toNat).Nodup :=
    (harranged.nodup_iff.mpr (nodup_tileGrid hpos hfits.1 hfits.2)).sublist
      (List.take_sublist _ _)
  have hgrid : ∀ tile ∈ (arrange pageShape.1.toNat pageShape.2.toNat shuffled.toList).take
      profile.tilesPerPage.toNat,
      tile ∈ tileGrid pageShape.1.toNat pageShape.2.toNat profile.tileSizePx.toNat :=
    fun tile hmem ↦ harranged.mem_iff.mp (List.mem_of_mem_take hmem)
  refine ⟨⟨?_, ?_, fun tile hmem ↦ ?_, hgrid, hnodup⟩, shuffled.toList, hperm,
    ⟨identifier, next, hshuffle⟩, rfl⟩
  · have hcount := hvalid.tilesPerPage
    rw [List.length_take, harranged.length_eq, Nat.min_eq_left hslots]
    omega
  · refine hnodup.imp_of_mem fun {tile other} hmem hother hne ↦ ?_
    exact disjoint_of_ne hpos hfits.1 hfits.2 (hgrid tile hmem) (hgrid other hother) hne
  · obtain ⟨hright, hbottom⟩ := inside_of_mem_tileGrid hpos hfits.1 hfits.2 (hgrid tile hmem)
    omega

end Derive

/-- Putting the survivors first only reorders the candidates. -/
theorem survivorsFirst_perm {K : Type} [Field K] [LinearOrder K] [FloorRing K]
    (retainedScales : List K) (height width : Nat) (candidates : List Tile) :
    (survivorsFirst retainedScales height width candidates).Perm candidates :=
  List.filter_append_perm _ candidates

/-- **Tile layout.**  What is derived are distinct, disjoint tiles of the page's grid, chosen after a
permutation of it by unbiased draws; and a layout is refused exactly for an invalid argument, for a
page beyond the ceiling or with too few slots, and for a stream that rejected samples exhaust. -/
theorem derive_tiles_placed (hmac : HmacSha256) (pageShape : Int × Int) (key : List UInt8)
    (pageIndex : Int) :
    (∀ profile : LayoutProfile,
      (∀ tiles, deriveTilesV2 hmac pageShape key pageIndex profile = .ok tiles →
        TilesPlaced pageShape profile tiles ∧ ∃ shuffled : List Tile,
          shuffled.Perm
            (tileGrid pageShape.1.toNat pageShape.2.toNat profile.tileSizePx.toNat) ∧
          (∃ identifier next, FisherYates.shuffle (randbelow hmac layoutV2.streamDomain)
            (tileGrid pageShape.1.toNat pageShape.2.toNat profile.tileSizePx.toNat).toArray
            (layoutStream hmac layoutV2 key pageIndex identifier) =
              .ok (shuffled.toArray, next)) ∧
          tiles = shuffled.take profile.tilesPerPage.toNat) ∧
      ((∃ e, deriveTilesV2 hmac pageShape key pageIndex profile = .error e) ↔
        LayoutRefused hmac layoutV2 pageShape key pageIndex profile)) ∧
    (∀ (K : Type) [Field K] [LinearOrder K] [FloorRing K] (profile : LayoutProfileV3 K),
      (∀ tiles, deriveTilesV3 hmac pageShape key pageIndex profile = .ok tiles →
        TilesPlaced pageShape profile.toLayoutProfile tiles ∧ ∃ shuffled : List Tile,
          shuffled.Perm
            (tileGrid pageShape.1.toNat pageShape.2.toNat profile.tileSizePx.toNat) ∧
          (∃ identifier next, FisherYates.shuffle (randbelow hmac layoutV3.streamDomain)
            (tileGrid pageShape.1.toNat pageShape.2.toNat profile.tileSizePx.toNat).toArray
            (layoutStream hmac layoutV3 key pageIndex identifier) =
              .ok (shuffled.toArray, next)) ∧
          tiles = (survivorsFirst profile.cropRetainedScales pageShape.1.toNat pageShape.2.toNat
            shuffled).take profile.tilesPerPage.toNat) ∧
      ((∃ e, deriveTilesV3 hmac pageShape key pageIndex profile = .error e) ↔
        LayoutRefused hmac layoutV3 pageShape key pageIndex profile.toLayoutProfile)) ∧
    ∀ upperBound residue : Nat, residue < upperBound →
      (Rejection.accepted (byteCount upperBound) (acceptanceLimit upperBound) upperBound
          residue).ncard = acceptanceLimit upperBound / upperBound ∧
        0 < acceptanceLimit upperBound / upperBound ∧
        ∀ streamDomain stream value next,
          randbelow hmac streamDomain upperBound stream = .ok (value, next) →
            value < upperBound ∧ ∃ bytes ∈ Rejection.accepted (byteCount upperBound)
              (acceptanceLimit upperBound) upperBound value,
                bytes <:+: stream.supply hmac streamDomain := by
  refine ⟨fun profile ↦ ⟨fun tiles h ↦ ?_, deriveTiles_refused_iff⟩,
    fun K _ _ _ profile ↦ ⟨fun tiles h ↦ ?_, deriveTiles_refused_iff⟩,
    fun upperBound residue hresidue ↦ ⟨?_, ?_, fun streamDomain stream value next h ↦ ?_⟩⟩
  · -- the second version leaves the shuffled order, the third puts the survivors first
    exact deriveTiles_placed (fun _ _ candidates ↦ List.Perm.refl candidates) h
  · exact deriveTiles_placed (survivorsFirst_perm profile.cropRetainedScales) h
  · exact Rejection.ncard_accepted (acceptanceLimit_le upperBound)
      (dvd_acceptanceLimit upperBound) hresidue
  · have hpos := acceptanceLimit_pos (Nat.zero_lt_of_lt hresidue)
    exact Nat.div_pos (Nat.le_of_dvd hpos (dvd_acceptanceLimit upperBound))
      (Nat.zero_lt_of_lt hresidue)
  · exact randbelow_accepted h

/-- A page with room for one tile, asked for one and for two. -/
example (hmac : HmacSha256) :
    deriveTilesV2 hmac (40, 50) [7] 0 ⟨2, 32, 1, .ok [1]⟩ = .ok [⟨0, 0, 32, 32⟩] ∧
      deriveTilesV2 hmac (40, 50) [7] 0 ⟨2, 32, 2, .ok [1]⟩ = .error (.value
        "page provides 1 non-overlapping tile slots, but profile requests 2") :=
  ⟨rfl, rfl⟩

/-- Of nine tiles the one comes first that lies in half of each side. -/
example : survivorsFirst [(1 / 2 : ℚ)] 96 96 (tileGrid 96 96 32) =
    [⟨32, 32, 32, 32⟩, ⟨0, 0, 32, 32⟩, ⟨32, 0, 32, 32⟩, ⟨64, 0, 32, 32⟩, ⟨0, 32, 32, 32⟩,
      ⟨64, 32, 32, 32⟩, ⟨0, 64, 32, 32⟩, ⟨32, 64, 32, 32⟩, ⟨64, 64, 32, 32⟩] := by
  decide +kernel

/-! ### A stream of bytes that are all rejected -/

/-- A digest that says `0xff` throughout. -/
def saturatedHmac : HmacSha256 where
  digest := fun _ _ ↦ List.replicate 32 0xff
  length_digest := fun _ _ ↦ List.length_replicate

def sampleLayoutProfile : LayoutProfile where
  schemaVersion := 2
  tileSizePx := 512
  tilesPerPage := 18
  candidateIdentifier := .ok [0x53, 0x42, 0x46, 0x32, 1]

theorem flatMap_replicate {counters : List Nat} {count : Nat} {byte : UInt8} :
    (counters.flatMap fun _ ↦ List.replicate count byte) =
      List.replicate (counters.length * count) byte := by
  induction counters with
  | nil =>
    rw [List.length_nil, Nat.zero_mul]
    rfl
  | cons _ counters ih =>
    rw [List.flatMap_cons, ih, List.replicate_append_replicate, List.length_cons, Nat.succ_mul,
      Nat.add_comm]

/-- Valid arguments, a small page and room for the tiles, and yet no layout. -/
theorem derive_tiles_exhausted :
    ValidLayout layoutV2 (1536, 3072) [1] 0 sampleLayoutProfile ∧
      (1536 : Int) * 3072 ≤ maxLayoutPixels ∧
      sampleLayoutProfile.tilesPerPage ≤ gridSlots (1536, 3072) sampleLayoutProfile ∧
      ∃ e, deriveTilesV2 saturatedHmac (1536, 3072) [1] 0 sampleLayoutProfile = .error e := by
  have hvalid : ValidLayout layoutV2 (1536, 3072) [1] 0 sampleLayoutProfile :=
    ⟨by decide, by decide, by decide, by decide, rfl, by decide, by decide, ⟨_, rfl⟩⟩
  refine ⟨hvalid, by decide, by decide, deriveTiles_refused_iff.mpr (.inr (.inr (.inr
    ⟨_, rfl, ?_⟩)))⟩
  have hbytes : byteCount 18 = 1 := by decide
  have hlimit : acceptanceLimit 18 = 252 := by decide
  have hsupply : ∀ stream : HmacByteStream, stream.buffer = [] →
      stream.supply saturatedHmac layoutV2.streamDomain =
        List.replicate ((blockCount - stream.counter) * 32) 0xff := by
    intro stream hbuffer
    rw [HmacByteStream.supply, hbuffer, List.nil_append, blocksFrom]
    refine flatMap_replicate.trans ?_
    rw [List.length_range']
  have hslots : gridSlots (1536, 3072) sampleLayoutProfile = 18 := by decide
  rw [StreamExhausted, hsupply _ rfl, hslots]
  show FisherYates.drawsFrom drawBelow (16 + 1) _ = _
  rw [FisherYates.drawsFrom, drawBelow, hbytes, hlimit, Rejection.sample_replicate (by decide),
    found_none, error_bind]

end Splitbind
