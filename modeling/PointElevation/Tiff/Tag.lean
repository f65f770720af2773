/-!
# Tags

The fields in use.  A file knows each of them by a number, messages by a name.
-/

namespace PointElevation.Tiff

def columnsTag : Nat := 256
def rowsTag : Nat := 257
def bitsTag : Nat := 258
def compressionTag : Nat := 259
def coloursTag : Nat := 262
def bitOrderTag : Nat := 266
def stripPlacesTag : Nat := 273
def bandsTag : Nat := 277
def stripRowsTag : Nat := 278
def stripSizesTag : Nat := 279
def leastSampleTag : Nat := 280
def greatestSampleTag : Nat := 281
def arrangementTag : Nat := 284
def colourMapTag : Nat := 320
def tileColumnsTag : Nat := 322
def tileRowsTag : Nat := 323
def tilePlacesTag : Nat := 324
def tileSizesTag : Nat := 325
def furtherSamplesTag : Nat := 338
def sampleFormatTag : Nat := 339
def leastValueTag : Nat := 340
def greatestValueTag : Nat := 341
def dataTypeTag : Nat := 32996
def noDataTag : Nat := 42113

/-- The names of the fields that a message may be about. -/
def tagNames : List (Nat × String) :=
  [(columnsTag, "ImageWidth"), (rowsTag, "ImageLength"), (bitsTag, "BitsPerSample"),
   (compressionTag, "Compression"), (coloursTag, "PhotometricInterpretation"),
   (stripPlacesTag, "StripOffsets"), (bandsTag, "SamplesPerPixel"), (stripRowsTag, "RowsPerStrip"),
   (stripSizesTag, "StripByteCounts"), (leastSampleTag, "MinSampleValue"),
   (greatestSampleTag, "MaxSampleValue"), (arrangementTag, "PlanarConfiguration"),
   (colourMapTag, "Colormap"), (tileColumnsTag, "TileWidth"), (tileRowsTag, "TileLength"),
   (tilePlacesTag, "TileOffsets"), (tileSizesTag, "TileByteCounts"),
   (furtherSamplesTag, "ExtraSamples"), (sampleFormatTag, "SampleFormat"),
   (leastValueTag, "SMinSampleValue"), (greatestValueTag, "SMaxSampleValue"),
   (dataTypeTag, "DataType")]

/-- The name of a field; a field without one is called by its number. -/
def tagName (tag : Nat) : String := (tagNames.lookup tag).getD (toString tag)

end PointElevation.Tiff
