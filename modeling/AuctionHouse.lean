import AuctionHouse.Store.Atomicity
import AuctionHouse.Store.Batch
import AuctionHouse.Store.Conservation
import AuctionHouse.Store.Expiry
import AuctionHouse.Store.Identity
import AuctionHouse.Store.Listing
import AuctionHouse.Store.Protection
import AuctionHouse.Store.Reporting
import AuctionHouse.Store.Restart
import AuctionHouse.Store.Stacks
import AuctionHouse.Store.Traces
import AuctionHouse.Server.Framing
import AuctionHouse.Server.Grammar
import AuctionHouse.Server.LineEnds
import AuctionHouse.Server.Output
import AuctionHouse.Server.Sessions
import AuctionHouse.Server.Authority
import AuctionHouse.Store.Coalition
import AuctionHouse.Store.Numbers
import AuctionHouse.Store.Solvency
import AuctionHouse.Store.Bidding
import AuctionHouse.Server.Notices
import AuctionHouse.Server.ListingText
import AuctionHouse.Server.LogFile
import AuctionHouse.Store.Kills
import AuctionHouse.Server.Receipts
import AuctionHouse.Server.Rest
import AuctionHouse.Server.Provenance
import AuctionHouse.Server.Availability
