import BitmapAsset.Main
import BitmapAsset.Stream.Reader
import BitmapAsset.Proofs.RoundTrip
import BitmapAsset.Proofs.CompressedText
import BitmapAsset.Proofs.SamePicture
import BitmapAsset.Proofs.Inputs
import BitmapAsset.Proofs.SharedOutput
import BitmapAsset.Proofs.BesideInputs
import BitmapAsset.Proofs.Sessions
import BitmapAsset.Proofs.HeaderReading
import BitmapAsset.Proofs.PrefixFree
import BitmapAsset.Proofs.UniqueText
import BitmapAsset.Proofs.RefusedInputs
import BitmapAsset.Proofs.ShortestRuns
import BitmapAsset.Proofs.LineLayout
import BitmapAsset.Proofs.Chunks
import BitmapAsset.Proofs.FileNames
import BitmapAsset.Proofs.InputsKept
import BitmapAsset.Proofs.PackedBytes
import BitmapAsset.Proofs.RefusedWords
import BitmapAsset.Proofs.ArgumentRoles
import BitmapAsset.Proofs.LossyText
import BitmapAsset.Proofs.ArrayNames
import BitmapAsset.Proofs.OutputPaths
import BitmapAsset.Proofs.Rounds
