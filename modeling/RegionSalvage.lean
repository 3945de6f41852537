import RegionSalvage.Block.Basic
import RegionSalvage.Block.Chain
import RegionSalvage.Block.Image
import RegionSalvage.Block.Source
import RegionSalvage.Bytes
import RegionSalvage.Calendar.Date
import RegionSalvage.CommandLine.Options
import RegionSalvage.CommandLine.ProgressBar
import RegionSalvage.CommandLine.Request
import RegionSalvage.CommandLine.Run
import RegionSalvage.Digest.Md5
import RegionSalvage.Disk.FileTree
import RegionSalvage.Ext.Bitmap
import RegionSalvage.Ext.BlockMap
import RegionSalvage.Ext.Superblock
import RegionSalvage.FreeSpace.BlockTable
import RegionSalvage.FreeSpace.Dump
import RegionSalvage.Main
import RegionSalvage.Nbt.Position
import RegionSalvage.Nbt.Tag
import RegionSalvage.Numeric.Binary64
import RegionSalvage.Numeric.IntegerText
import RegionSalvage.Proofs.Block.Consecutive
import RegionSalvage.Proofs.Scan.Prospect
import RegionSalvage.Record.Assembly
import RegionSalvage.Record.Calls
import RegionSalvage.Record.Decode
import RegionSalvage.Record.Layout
import RegionSalvage.Recovery.Ledger
import RegionSalvage.Recovery.Log
import RegionSalvage.Recovery.Session
import RegionSalvage.Region.OffsetEntry
import RegionSalvage.Region.Signature
import RegionSalvage.Scan.Criteria
import RegionSalvage.Scan.Party
import RegionSalvage.Scan.Sighting
import RegionSalvage.Scan.Status
import RegionSalvage.Scan.Walk
import RegionSalvage.Shard.Ranges
import RegionSalvage.Shard.Report
import RegionSalvage.Shard.Scan
import RegionSalvage.Text.Blank
import RegionSalvage.Text.DecimalDigit
import RegionSalvage.Text.Hex
import RegionSalvage.Text.Json
import RegionSalvage.Text.Printable
import RegionSalvage.Text.Quoted
import RegionSalvage.Text.Utf8
import RegionSalvage.Volume.Basic
import RegionSalvage.Volume.Opening
import RegionSalvage.Zlib.Bits
import RegionSalvage.Zlib.BlockHeader
import RegionSalvage.Zlib.Code
import RegionSalvage.Zlib.Fault
import RegionSalvage.Zlib.Inflate
import RegionSalvage.Zlib.Machine
import RegionSalvage.Proofs.Scan.Exactness
import RegionSalvage.Proofs.Shard.Cover
import RegionSalvage.Proofs.Shard.Equivalence
import RegionSalvage.Proofs.Bytes
import RegionSalvage.Proofs.Ext.Bitmap
import RegionSalvage.Proofs.Ext.Allocation
import RegionSalvage.Proofs.Block.Reading
import RegionSalvage.Proofs.Record.RoundTrip
import RegionSalvage.Proofs.Scan.Independence
import RegionSalvage.Proofs.Scan.Visited
import RegionSalvage.Proofs.Scan.Counters
import RegionSalvage.Proofs.Recovery.Candidate
import RegionSalvage.Recovery.Calls
import RegionSalvage.Proofs.Recovery.Bookkeeping
import RegionSalvage.Proofs.Recovery.Completion
import RegionSalvage.Proofs.Block.Runs
import RegionSalvage.Proofs.Record.Growth
import RegionSalvage.Proofs.Ext.Readability
import RegionSalvage.Proofs.Ext.Truncation
import RegionSalvage.Proofs.Volume.Selection
import RegionSalvage.Proofs.FreeSpace.BlockTable
import RegionSalvage.Proofs.FreeSpace.Carving
import RegionSalvage.Proofs.FreeSpace.Dump
import RegionSalvage.Proofs.Region.Blank
import RegionSalvage.Proofs.Region.Signature
import RegionSalvage.Proofs.Scan.Ascent
import RegionSalvage.Proofs.Scan.Loosening
import RegionSalvage.Proofs.Volume.Sources
import RegionSalvage.Proofs.Volume.Carvable
import RegionSalvage.Proofs.Volume.FreePart
import RegionSalvage.Proofs.Region.Density
import RegionSalvage.Proofs.Scan.Sparseness
import RegionSalvage.Proofs.Ext.Reach
import RegionSalvage.Proofs.Volume.Mapping
import RegionSalvage.Proofs.Recovery.Content
import RegionSalvage.Proofs.Recovery.Order
import RegionSalvage.Proofs.Disk.Paths
import RegionSalvage.Proofs.Disk.Directory
import RegionSalvage.Proofs.Recovery.SavedFiles
import RegionSalvage.Proofs.Recovery.OutputDirectory
import RegionSalvage.Proofs.Ext.FreeCount
import RegionSalvage.Proofs.Region.OffsetTable
import RegionSalvage.Proofs.Record.Assembly
import RegionSalvage.Proofs.Recovery.LostContent
import RegionSalvage.Proofs.Region.Packing
import RegionSalvage.Proofs.Zlib.Extension
import RegionSalvage.Proofs.Zlib.Progress
import RegionSalvage.Proofs.Zlib.Course
import RegionSalvage.Proofs.Zlib.Windows
import RegionSalvage.Proofs.Zlib.Boundary
import RegionSalvage.Proofs.Record.Decoding
import RegionSalvage.Proofs.Record.DeclaredLength
import RegionSalvage.Proofs.Scan.RunLength
import RegionSalvage.Proofs.Volume.FlatReading
import RegionSalvage.Proofs.Ext.Shortening
import RegionSalvage.Proofs.FreeSpace.Streams
import RegionSalvage.Proofs.Scan.NoticeBlocks
import RegionSalvage.Proofs.Scan.Notices
import RegionSalvage.Proofs.Shard.Sizes
